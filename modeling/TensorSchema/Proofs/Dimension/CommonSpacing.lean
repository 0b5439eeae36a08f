import Mathlib
import TensorSchema.Proofs.Dimension.Intersection

/-! The common spacing of two grids with whole spacings is their least common multiple. With 64-bit words,
Euclid's loop never divides by zero and ends at the greatest common divisor, and because a spacing is
divided by it before the other one is multiplied, the product is a word whenever the multiple is one. -/

namespace TensorSchema

open Double StateTransition

namespace Grid

/-- The quotient and the remainder of two words. There are none for a divisor of zero, or if the quotient
is not a word. -/
def divide? (a b : Int64) : Option (Int64 × Int64) :=
  if b = 0 ∨ a = Int64.minValue ∧ b = -1 then none else some (a / b, a % b)

inductive EuclidState where
  | words (a b : Int64)
  | fault

def EuclidState.next : EuclidState → Option EuclidState
  | .words a b =>
    if b = 0 then none
    else some ((divide? a b).elim .fault fun division => .words b division.2)
  | .fault => none

section Words

variable {fuel a b : ℕ}

lemma ofNat_ne {w : Int64} (ha : a < 2 ^ 63) (hw : w.toInt ≠ a) : Int64.ofNat a ≠ w := by
  rintro rfl
  exact hw (Int64.toInt_ofNat_of_lt ha)

lemma ofNat_ne_zero (hpos : 0 < a) (ha : a < 2 ^ 63) : Int64.ofNat a ≠ 0 :=
  ofNat_ne ha (by rw [Int64.toInt_zero]; omega)

lemma divide?_ofNat (ha : a < 2 ^ 63) (hpos : 0 < b) (hb : b < 2 ^ 63) :
    divide? (.ofNat a) (.ofNat b) = some (.ofNat (a / b), .ofNat (a % b)) := by
  have hdivides : ¬ (Int64.ofNat b = 0 ∨ Int64.ofNat a = Int64.minValue ∧ Int64.ofNat b = -1) := by
    rintro (hzero | ⟨hmin, -⟩)
    · exact ofNat_ne_zero hpos hb hzero
    · exact ofNat_ne ha (by rw [Int64.toInt_minValue]; omega) hmin
  rw [divide?, if_neg hdivides, Int64.ofNat_div ha hb, Int64.ofNat_mod ha hb]

lemma next_words (ha : a < 2 ^ 63) (hpos : 0 < b) (hb : b < 2 ^ 63) :
    EuclidState.next (.words (.ofNat a) (.ofNat b)) = some (.words (.ofNat b) (.ofNat (a % b))) := by
  rw [EuclidState.next, if_neg (ofNat_ne_zero hpos hb), divide?_ofNat ha hpos hb, Option.elim_some]

lemma eval_words_zero (a : Int64) :
    eval EuclidState.next (.words a 0) = Part.some (.words a 0) :=
  Part.eq_some_iff.mpr (mem_eval.mpr ⟨.refl, rfl⟩)

lemma eval_words (hfuel : b ≤ fuel) (ha : a < 2 ^ 63) (hb : b < 2 ^ 63) :
    eval EuclidState.next (.words (.ofNat a) (.ofNat b)) =
      Part.some (.words (.ofNat (euclid fuel a b)) 0) := by
  induction fuel generalizing a b with
  | zero =>
    obtain rfl := Nat.le_zero.mp hfuel
    exact eval_words_zero _
  | succ fuel ih =>
    rw [euclid]
    split
    next hzero =>
      rw [hzero]
      exact eval_words_zero _
    next hzero =>
      -- the remainder is less than the second number, so the fuel that is left is enough for it
      have hpos := Nat.pos_of_ne_zero hzero
      have hrest := Nat.mod_lt a hpos
      have hround : Reaches EuclidState.next (.words (.ofNat a) (.ofNat b))
          (.words (.ofNat b) (.ofNat (a % b))) := .single (next_words ha hpos hb)
      rw [reaches_eval hround]
      exact ih (by omega) hb (by omega)

lemma not_reaches_fault (ha : a < 2 ^ 63) (hb : b < 2 ^ 63) :
    ¬ Reaches EuclidState.next (.words (.ofNat a) (.ofNat b)) .fault := by
  intro hfault
  have hend := Part.eq_some_iff.mpr (mem_eval.mpr ⟨hfault, rfl⟩)
  rw [eval_words le_rfl ha hb] at hend
  cases Part.some_inj.mp hend

lemma exactInt64_multiple (ha : a < 2 ^ 63) (hb : b < 2 ^ 63) :
    exactInt64 ((Int64.ofNat (a / commonDivisor a b)).toInt * (Int64.ofNat b).toInt) =
      (commonMultiple? a b).map Int64.ofNat := by
  have hquotient : a / commonDivisor a b < 2 ^ 63 := (Nat.div_le_self a _).trans_lt ha
  rw [Int64.toInt_ofNat_of_lt hquotient, Int64.toInt_ofNat_of_lt hb, ← Nat.cast_mul, exactInt64]
  simp only [commonMultiple?]
  generalize a / commonDivisor a b * b = n
  by_cases hfits : n < 0x8000000000000000
  · rw [if_pos hfits, if_pos (by omega), Int64.ofInt_eq_ofNat, Option.map_some]
  · rw [if_neg hfits, if_neg (by omega), Option.map_none]

end Words

structure WordArithmetic (a b : ℕ) : Prop where
  ends : eval EuclidState.next (.words (.ofNat a) (.ofNat b)) =
    Part.some (.words (.ofNat (commonDivisor a b)) 0)
  no_fault : ¬ Reaches EuclidState.next (.words (.ofNat a) (.ofNat b)) .fault
  enough_fuel : ∀ fuel ≥ b, euclid fuel a b = commonDivisor a b
  divisor : commonDivisor a b = a.gcd b
  quotient : divide? (.ofNat a) (.ofNat (commonDivisor a b)) = some (.ofNat (a / commonDivisor a b), 0)
  product : exactInt64 ((Int64.ofNat (a / commonDivisor a b)).toInt * (Int64.ofNat b).toInt) =
    (commonMultiple? a b).map Int64.ofNat
  multiple : commonMultiple? a b = if a.lcm b ≤ 2 ^ 63 - 1 then some (a.lcm b) else none

lemma wordArithmetic {a b : ℕ} (hpos : 0 < a) (ha : a < 2 ^ 63) (hb : b < 2 ^ 63) : WordArithmetic a b := by
  have hgcd : commonDivisor a b = a.gcd b := euclid_eq_gcd le_rfl
  exact {
    ends := eval_words le_rfl ha hb
    no_fault := not_reaches_fault ha hb
    enough_fuel := fun fuel hfuel => (euclid_eq_gcd hfuel).trans hgcd.symm
    divisor := hgcd
    quotient := by
      have hle := Nat.gcd_le_left b hpos
      rw [hgcd, divide?_ofNat ha (Nat.gcd_pos_of_pos_left b hpos) (by omega),
        Nat.mod_eq_zero_of_dvd (Nat.gcd_dvd_left a b)]
      rfl
    product := exactInt64_multiple ha hb
    multiple := by
      rw [commonMultiple?_eq]
      exact if_congr (by omega) rfl rfl }

section Spacings

variable {x y : Float} {a b : ℕ} (hx : whole? x = some (a : ℤ)) (hy : whole? y = some (b : ℤ))
  (ha : a < 2 ^ 63) (hb : b < 2 ^ 63) (hne : a ≠ b)

include hx hy ha hb hne

lemma not_sub_lt_tolerance : ¬ (x - y).abs < tolerance := mt (sub_lt_tolerance_iff hx hy ha hb).mp hne

lemma commonSpacing?_of_ne :
    commonSpacing? x y = if a.lcm b < 2 ^ 63 then some (ofMagnitude false (a.lcm b)) else none := by
  rw [commonSpacing?, if_neg (not_sub_lt_tolerance hx hy ha hb hne), wholeSpacing?_eq hx ha,
    wholeSpacing?_eq hy hb]
  dsimp only
  rw [commonMultiple?_eq]
  exact apply_ite (Option.map (ofMagnitude false)) _ _ _

lemma commonSpacing?_eq_none : commonSpacing? x y = none ↔ 2 ^ 63 ≤ a.lcm b := by
  rw [commonSpacing?_of_ne hx hy ha hb hne, ite_eq_right_iff, ← not_lt]
  simp

lemma nearest_commonSpacing {z : Float} (hz : commonSpacing? x y = some z) :
    ∃ r, value? z = some r ∧ Nearest (a.lcm b) r := by
  rw [commonSpacing?_of_ne hx hy ha hb hne] at hz
  obtain ⟨hfits, hmultiple⟩ := Option.ite_none_right_eq_some.mp hz
  obtain rfl := Option.some.inj hmultiple
  have hmagnitude : |(a.lcm b : ℤ)| < 2 ^ 64 := by
    rw [Nat.abs_cast]
    omega
  obtain ⟨r, hr, hnearest⟩ := nearest_ofInt hmagnitude
  rw [ofInt, decide_eq_false (by omega), Int.natAbs_natCast] at hr
  exact ⟨r, hr, by exact_mod_cast hnearest⟩

end Spacings

end Grid

namespace Dimension

lemma intersect_eq_noCommonGrid {left right : Dimension} (himplicit : left.isImplicit = true)
    (himplicit' : right.isImplicit = true) (hstep : left.hasStep = true) (hstep' : right.hasStep = true) :
    left.intersect right = .error (.noCommonGrid left.name left.spacing right.name right.spacing) ↔
      Grid.commonSpacing? left.spacing right.spacing = none := by
  simp only [intersect, himplicit, himplicit', hstep, hstep', Bool.not_true, Bool.or_self,
    Bool.false_eq_true, if_false]
  cases Grid.commonSpacing? left.spacing right.spacing with
  | none => simp
  | some spacing =>
    -- what goes wrong after this is another fault
    dsimp only
    cases Grid.sharedBounds? left right spacing with
    | none => simp
    | some bounds =>
      dsimp only
      split <;> simp

end Dimension

namespace Grid

theorem commonSpacing_exact {a b : ℕ} (hpos : 0 < a) (ha : a < 2 ^ 63) (hpos' : 0 < b) (hb : b < 2 ^ 63) :
    WordArithmetic a b ∧
    ∀ left right : Dimension, whole? left.spacing = some (a : ℤ) → whole? right.spacing = some (b : ℤ) →
      a ≠ b →
      ¬ (left.spacing - right.spacing).abs < tolerance ∧
      (commonSpacing? left.spacing right.spacing = none ↔ 2 ^ 63 ≤ a.lcm b) ∧
      (∀ z, commonSpacing? left.spacing right.spacing = some z →
        ∃ r, value? z = some r ∧ Nearest (a.lcm b) r) ∧
      (left.isImplicit = true → right.isImplicit = true →
        (left.intersect right = .error (.noCommonGrid left.name left.spacing right.name right.spacing) ↔
          2 ^ 63 ≤ a.lcm b)) := by
  refine ⟨wordArithmetic hpos ha hb, ?_⟩
  intro left right hleft hright hne
  have hoverflow := commonSpacing?_eq_none hleft hright ha hb hne
  refine ⟨not_sub_lt_tolerance hleft hright ha hb hne, hoverflow,
    fun z => nearest_commonSpacing hleft hright ha hb hne, ?_⟩
  intro himplicit himplicit'
  have hstep := Dimension.hasStep_of_whole (whole?_eq_some.mp hleft) (by omega)
  have hstep' := Dimension.hasStep_of_whole (whole?_eq_some.mp hright) (by omega)
  exact (Dimension.intersect_eq_noCommonGrid himplicit himplicit' hstep hstep').trans hoverflow

-- the product of the first two spacings is too great for a word and their multiple is not
theorem wide_spacings_exact :
    WordArithmetic (3 * 2 ^ 40) (5 * 2 ^ 40) ∧ Nat.lcm (3 * 2 ^ 40) (5 * 2 ^ 40) = 15 * 2 ^ 40 ∧
    commonSpacing? 3298534883328 5497558138880 ≠ none ∧
    WordArithmetic 4294967311 4294967357 ∧ 2 ^ 63 ≤ Nat.lcm 4294967311 4294967357 ∧
    (Dimension.implicit "a" .long 0 1e10 4294967311).intersect (.implicit "b" .long 0 1e10 4294967357) =
      .error (.noCommonGrid "a" 4294967311 "b" 4294967357) := by
  have hnear := commonSpacing_exact (a := 3 * 2 ^ 40) (b := 5 * 2 ^ 40) (by norm_num) (by norm_num)
    (by norm_num) (by norm_num)
  have hfar := commonSpacing_exact (a := 4294967311) (b := 4294967357) (by norm_num) (by norm_num)
    (by norm_num) (by norm_num)
  have hmultiple : Nat.lcm (3 * 2 ^ 40) (5 * 2 ^ 40) = 15 * 2 ^ 40 := by decide
  have hoverflow : 2 ^ 63 ≤ Nat.lcm 4294967311 4294967357 := by decide
  obtain ⟨-, hfits, -⟩ := hnear.2 (.implicit "a" .long 0 1e10 3298534883328)
    (.implicit "b" .long 0 1e10 5497558138880) (by decide) (by decide +kernel) (by norm_num)
  obtain ⟨-, -, -, hrefused⟩ := hfar.2 (.implicit "a" .long 0 1e10 4294967311)
    (.implicit "b" .long 0 1e10 4294967357) (by decide) (by decide +kernel) (by norm_num)
  refine ⟨hnear.1, hmultiple, hfits.not.mpr ?_, hfar.1, hoverflow, (hrefused rfl rfl).mpr hoverflow⟩
  rw [hmultiple]
  norm_num

end Grid

end TensorSchema
