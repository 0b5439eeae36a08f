import Mathlib
import TensorSchema.Proofs.Double.Arithmetic

/-! Comparison of doubles where one may be infinite. A sum with a number that is not negative does not fall
below the other summand, even where it overflows. -/

namespace TensorSchema.Double

open Float.Model Float.Model.UnpackedFloat

variable {x y z v w : Float} {p q : ℚ} {negative : Bool}

lemma unpack_of_infinite (h : parts x = .infinite negative) :
    ∃ s, x.toModel.unpack = .infinity s ∧ isNegative s = negative := by
  rw [parts_eq] at h
  cases hx : x.toModel.unpack with
  | infinity s =>
    rw [hx] at h
    cases h
    exact ⟨s, rfl, rfl⟩
  | notANumber | zero s | finite s m e hm =>
    rw [hx] at h
    cases h

lemma unpack_of_not_isFinite (h : ¬ x.isFinite = true) :
    x.toModel.unpack = .notANumber ∨ ∃ s, x.toModel.unpack = .infinity s := by
  change ¬ x.toModel.unpack.isFinite = true at h
  cases hx : x.toModel.unpack with
  | notANumber => exact Or.inl rfl
  | infinity s => exact Or.inr ⟨s, rfl⟩
  | zero s | finite s m e hm =>
    rw [hx] at h
    exact (h rfl).elim

lemma not_lt_bottom (hy : parts y = .infinite true) : ¬ x < y := by
  obtain ⟨s, hs, hnegative⟩ := unpack_of_infinite hy
  cases s with
  | positive => cases hnegative
  | negative =>
    rw [lt_iff_compare, hs]
    cases x.toModel.unpack with
    | infinity t => cases t <;> decide
    | notANumber | zero t | finite t m e hm => simp [UnpackedFloat.compare]

lemma not_top_lt (hx : parts x = .infinite false) : ¬ x < y := by
  obtain ⟨s, hs, hnegative⟩ := unpack_of_infinite hx
  cases s with
  | negative => cases hnegative
  | positive =>
    rw [lt_iff_compare, hs]
    cases y.toModel.unpack with
    | infinity t => cases t <;> decide
    | notANumber | zero t | finite t m e hm => simp [UnpackedFloat.compare]

lemma le_value (h : x ≤ y) (hy : value? y = some q) :
    parts x = .infinite true ∨ ∃ p, value? x = some p ∧ p ≤ q := by
  by_cases hfinite : x.isFinite = true
  · obtain ⟨p, hp⟩ := value?_of_isFinite hfinite
    exact Or.inr ⟨p, hp, (le_iff hp hy).mp h⟩
  · left
    rw [le_iff_compare] at h
    rcases unpack_of_not_isFinite hfinite with hx | ⟨t, hx⟩ <;> rw [hx] at h
    · cases h
    · cases t with
      | negative => rw [parts_eq, hx, partsOf, isNegative]
      | positive =>
        rcases value?_cases hy with ⟨s, hs, -⟩ | ⟨s, m, e, hm, hs, -⟩ <;> rw [hs] at h <;> cases h

lemma value_le (h : x ≤ y) (hx : value? x = some p) :
    parts y = .infinite false ∨ ∃ q, value? y = some q ∧ p ≤ q := by
  by_cases hfinite : y.isFinite = true
  · obtain ⟨q, hq⟩ := value?_of_isFinite hfinite
    exact Or.inr ⟨q, hq, (le_iff hx hq).mp h⟩
  · left
    rw [le_iff_compare] at h
    rcases unpack_of_not_isFinite hfinite with hy | ⟨t, hy⟩ <;> rw [hy] at h
    · rcases value?_cases hx with ⟨s, hs, -⟩ | ⟨s, m, e, hm, hs, -⟩ <;> rw [hs] at h <;> cases h
    · cases t with
      | positive => rw [parts_eq, hy, partsOf, isNegative]
      | negative =>
        rcases value?_cases hx with ⟨s, hs, -⟩ | ⟨s, m, e, hm, hs, -⟩ <;> rw [hs] at h <;> cases h

lemma not_lt_self (x : Float) : ¬ x < x := by
  by_cases hfinite : x.isFinite = true
  · obtain ⟨q, hq⟩ := value?_of_isFinite hfinite
    rw [lt_iff hq hq]
    exact lt_irrefl q
  · rw [lt_iff_compare]
    rcases unpack_of_not_isFinite hfinite with hx | ⟨s, hx⟩ <;> rw [hx]
    · nofun
    · cases s <;> decide

lemma Rounded.not_below (h : Rounded q z) (hv : value? v = some p) (hpq : p ≤ q) (hw : w ≤ v) :
    ¬ z < w := by
  rcases le_value hw hv with hbottom | ⟨p', hp', hle⟩
  · exact not_lt_bottom hbottom
  · rcases h with ⟨r, hr, hnearest⟩ | ⟨hinfinite, hgreat⟩
    · have := hnearest.ge (representable_of_value? hv) hpq
      rw [lt_iff hr hp']
      linarith
    · have hpositive : ¬ q < 0 := by
        intro hq
        have := (neg_le_abs p).trans (abs_le_greatest hv)
        rw [abs_of_neg hq] at hgreat
        linarith
      rw [decide_eq_false hpositive] at hinfinite
      exact not_top_lt hinfinite

lemma Rounded.not_above (h : Rounded q z) (hv : value? v = some p) (hqp : q ≤ p) (hw : v ≤ w) :
    ¬ w < z := by
  rcases value_le hw hv with htop | ⟨p', hp', hle⟩
  · exact not_top_lt htop
  · rcases h with ⟨r, hr, hnearest⟩ | ⟨hinfinite, hgreat⟩
    · have := hnearest.le (representable_of_value? hv) hqp
      rw [lt_iff hp' hr]
      linarith
    · have hnegative : q < 0 := by
        by_contra hq
        have := (le_abs_self p).trans (abs_le_greatest hv)
        rw [abs_of_nonneg (not_lt.mp hq)] at hgreat
        linarith
      rw [decide_eq_true hnegative] at hinfinite
      exact not_lt_bottom hinfinite

lemma parts_pack_infinity (s : Sign) :
    parts ⟨Float.Model.pack (.infinity s)⟩ = .infinite (isNegative s) := by
  cases s <;> rfl

lemma parts_add_top (hx : value? x = some p) (hy : parts y = .infinite false) :
    parts (x + y) = .infinite false := by
  obtain ⟨s, hs, hpositive⟩ := unpack_of_infinite hy
  change parts ⟨Float.Model.pack (UnpackedFloat.add .binary64 x.toModel.unpack y.toModel.unpack)⟩ = _
  rcases value?_cases hx with ⟨t, ht, -⟩ | ⟨t, m, e, hm, ht, -⟩ <;> rw [hs, ht, ← hpositive] <;>
    exact parts_pack_infinity s

lemma parts_sub_top (hx : value? x = some p) (hy : parts y = .infinite false) :
    parts (x - y) = .infinite true := by
  obtain ⟨s, hs, hpositive⟩ := unpack_of_infinite hy
  change parts ⟨Float.Model.pack (UnpackedFloat.sub .binary64 x.toModel.unpack y.toModel.unpack)⟩ = _
  cases s with
  | negative => cases hpositive
  | positive =>
    rcases value?_cases hx with ⟨t, ht, -⟩ | ⟨t, m, e, hm, ht, -⟩ <;> rw [hs, ht] <;>
      exact parts_pack_infinity .negative

lemma not_add_lt (hv : value? v = some p) (hx : 0 ≤ x) (hw : w ≤ v) : ¬ v + x < w := by
  rcases value_le hx value?_zero with htop | ⟨q, hq, hpos⟩
  · exact not_top_lt (parts_add_top hv htop)
  · exact (rounded_add hv hq).not_below hv (by linarith) hw

lemma not_lt_sub (hv : value? v = some p) (hx : 0 ≤ x) (hw : v ≤ w) : ¬ w < v - x := by
  rcases value_le hx value?_zero with htop | ⟨q, hq, hpos⟩
  · exact not_lt_bottom (parts_sub_top hv htop)
  · exact (rounded_sub hv hq).not_above hv (by linarith) hw

end TensorSchema.Double
