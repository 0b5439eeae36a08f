import Mathlib
import TensorSchema.Proofs.Dimension.Points
import TensorSchema.Proofs.Schema.Names

/-! The number of cells is the product of the lengths, in any order, if 64 bits hold it. A dimension that
stands there again multiplies it again. -/

namespace TensorSchema

lemma exactInt64_eq_none {i : ℤ} (hi : 0 ≤ i) : exactInt64 i = none ↔ 2 ^ 63 ≤ i := by
  simp only [exactInt64, ite_eq_right_iff, reduceCtorEq, imp_false, not_and, not_lt]
  exact ⟨fun h => h (by omega), fun h _ => h⟩

lemma exactInt64_mul_eq_iff {i k : ℤ} (hi : 1 ≤ i) (hk : 1 ≤ k) :
    exactInt64 (i * k) = exactInt64 i ↔ exactInt64 i = none ∨ k = 1 := by
  have hle : i ≤ i * k := le_mul_of_one_le_right (by omega) hk
  cases h : exactInt64 i with
  | none =>
    rw [exactInt64_eq_none (by omega)] at h ⊢
    simp only [true_or, iff_true]
    exact h.trans hle
  | some n =>
    obtain rfl := exactInt64_eq_some.mp h
    rw [exactInt64_eq_some, eq_comm, mul_eq_left₀ (by omega)]
    simp

def checkedProduct (m n : Option Int64) : Option Int64 := do
  let m ← m
  let n ← n
  exactInt64 (m.toInt * n.toInt)

@[simp] lemma checkedProduct_none (m : Option Int64) : checkedProduct m none = none := by
  cases m <;> rfl

lemma checkedProduct_comm (m n : Option Int64) : checkedProduct m n = checkedProduct n m := by
  cases m <;> cases n <;> simp [checkedProduct, mul_comm]

lemma checkedProduct_exact {i k : ℤ} (hi : 1 ≤ i) (hk : 1 ≤ k) :
    checkedProduct (exactInt64 i) (exactInt64 k) = exactInt64 (i * k) := by
  have hright : i ≤ i * k := le_mul_of_one_le_right (by omega) hk
  have hleft : k ≤ i * k := le_mul_of_one_le_left (by omega) hi
  cases hm : exactInt64 i with
  | none =>
    rw [exactInt64_eq_none (by omega)] at hm
    exact ((exactInt64_eq_none (by omega)).mpr (hm.trans hright)).symm
  | some m =>
    cases hn : exactInt64 k with
    | none =>
      rw [exactInt64_eq_none (by omega)] at hn
      exact ((exactInt64_eq_none (by omega)).mpr (hn.trans hleft)).symm
    | some n =>
      rw [← exactInt64_eq_some.mp hm, ← exactInt64_eq_some.mp hn]
      rfl

lemma prod_pow_eq_one_iff {ι : Type} {t : Finset ι} {f : ι → ℤ} {n : ι → ℕ} (h : ∀ i ∈ t, 1 ≤ f i) :
    ∏ i ∈ t, f i ^ n i = 1 ↔ ∀ i ∈ t, f i = 1 ∨ n i = 0 := by
  constructor
  · intro hone i hi
    have hpos : 0 ≤ f i := by linarith [h i hi]
    have hunit : f i ^ n i = 1 := by
      apply Int.eq_one_of_dvd_one (pow_nonneg hpos _)
      rw [← hone]
      exact Finset.dvd_prod_of_mem _ hi
    by_cases hn : n i = 0
    · exact Or.inr hn
    · exact Or.inl ((pow_eq_one_iff_of_nonneg hpos hn).mp hunit)
  · intro hall
    apply Finset.prod_eq_one
    intro i hi
    rcases hall i hi with hone | hzero
    · rw [hone, one_pow]
    · rw [hzero, pow_zero]

namespace Dimension

def Populated (d : Dimension) : Prop := ∃ n, d.length? = some n ∧ 1 ≤ n.toInt

instance : DecidablePred Populated := fun d =>
  decidable_of_iff (d.length?.any fun n => 1 ≤ n.toInt) (by simp [Populated, Option.any_eq_true])

variable {d : Dimension}

lemma Populated.length? (h : d.Populated) : d.length? = some d.length := by
  obtain ⟨n, hn, -⟩ := h
  rw [length, hn, Option.getD_some]

lemma Populated.one_le (h : d.Populated) : 1 ≤ d.length.toInt := by
  obtain ⟨n, hn, hpos⟩ := h
  rwa [length, hn, Option.getD_some]

lemma Populated.length_eq_one (h : d.Populated) : d.length.toInt = 1 ↔ d.length? = some 1 := by
  rw [h.length?, Option.some.injEq, ← Int64.toInt_inj]
  rfl

end Dimension

namespace Schema

variable {s : Schema} {acc : Int64} {d : Dimension} {ds es : List Dimension}

def lengthProduct (ds : List Dimension) : ℤ := (ds.map fun d => d.length.toInt).prod

@[simp] lemma lengthProduct_nil : lengthProduct [] = 1 := rfl

@[simp] lemma lengthProduct_cons (d : Dimension) (ds : List Dimension) :
    lengthProduct (d :: ds) = d.length.toInt * lengthProduct ds := by
  simp [lengthProduct]

@[simp] lemma lengthProduct_append (ds es : List Dimension) :
    lengthProduct (ds ++ es) = lengthProduct ds * lengthProduct es := by
  simp [lengthProduct]

lemma one_le_lengthProduct (h : ∀ d ∈ ds, d.Populated) : 1 ≤ lengthProduct ds := by
  induction ds with
  | nil => simp
  | cons d rest ih =>
    obtain ⟨hd, hrest⟩ := List.forall_mem_cons.mp h
    rw [lengthProduct_cons]
    exact one_le_mul_of_one_le_of_one_le hd.one_le (ih hrest)

lemma cellProduct_cons (hd : d.Populated) (acc : Int64) (rest : List Dimension) :
    cellProduct acc (d :: rest) =
      (exactInt64 (acc.toInt * d.length.toInt)).bind fun next => cellProduct next rest := by
  rw [cellProduct, hd.length?]
  rfl

lemma cellProduct_eq (hacc : 1 ≤ acc.toInt) (h : ∀ d ∈ ds, d.Populated) :
    cellProduct acc ds = exactInt64 (acc.toInt * lengthProduct ds) := by
  induction ds generalizing acc with
  | nil => simpa [cellProduct] using (exactInt64_eq_some.mpr rfl).symm
  | cons d rest ih =>
    obtain ⟨hd, hrest⟩ := List.forall_mem_cons.mp h
    have hpos : 1 ≤ acc.toInt * d.length.toInt := one_le_mul_of_one_le_of_one_le hacc hd.one_le
    rw [cellProduct_cons hd, lengthProduct_cons, ← mul_assoc]
    cases hnext : exactInt64 (acc.toInt * d.length.toInt) with
    | none =>
      -- no length is less than one, so the whole product overflows with this part of it
      have hle := le_mul_of_one_le_right (by omega) (one_le_lengthProduct hrest)
        (a := acc.toInt * d.length.toInt)
      rw [exactInt64_eq_none (by omega)] at hnext
      exact ((exactInt64_eq_none (by omega)).mpr (hnext.trans hle)).symm
    | some next =>
      rw [← exactInt64_eq_some.mp hnext] at hpos ⊢
      exact ih hpos hrest

lemma cellProduct_one (h : ∀ d ∈ ds, d.Populated) : cellProduct 1 ds = exactInt64 (lengthProduct ds) := by
  rw [cellProduct_eq (by decide) h]
  simp

lemma cellProduct_eq_none (hd : d ∈ ds) (h : d.length? = none) : cellProduct acc ds = none := by
  induction ds generalizing acc with
  | nil => cases hd
  | cons e rest ih =>
    rcases List.mem_cons.mp hd with rfl | hd
    · rw [cellProduct, h]
      rfl
    · simp [cellProduct, ih hd]

lemma cellProduct_append (hds : ∀ d ∈ ds, d.length? = none ∨ d.Populated)
    (hes : ∀ d ∈ es, d.length? = none ∨ d.Populated) :
    cellProduct 1 (ds ++ es) = checkedProduct (cellProduct 1 ds) (cellProduct 1 es) := by
  by_cases hunknown : ∃ d ∈ ds ++ es, d.length? = none
  · obtain ⟨d, hd, hlength⟩ := hunknown
    rw [cellProduct_eq_none hd hlength]
    rcases List.mem_append.mp hd with hd | hd
    · rw [cellProduct_eq_none hd hlength]
      rfl
    · rw [cellProduct_eq_none hd hlength, checkedProduct_none]
  · -- every length is at least one, so a part overflows only if the whole does
    push Not at hunknown
    have hknown : ∀ d ∈ ds ++ es, d.Populated := by
      intro d hd
      exact ((List.forall_mem_append.mpr ⟨hds, hes⟩) d hd).resolve_left (hunknown d hd)
    obtain ⟨hds, hes⟩ := List.forall_mem_append.mp hknown
    rw [cellProduct_one hknown, cellProduct_one hds, cellProduct_one hes, lengthProduct_append,
      checkedProduct_exact (one_le_lengthProduct hds) (one_le_lengthProduct hes)]

lemma cellProduct_congr (h : ds.map Dimension.length? = es.map Dimension.length?) :
    cellProduct acc ds = cellProduct acc es := by
  induction ds generalizing acc es with
  | nil =>
    obtain rfl := List.map_eq_nil_iff.mp h.symm
    rfl
  | cons d rest ih =>
    obtain ⟨e, others, rfl, hd, hrest⟩ := List.map_eq_cons_iff.mp h.symm
    simp only [cellProduct, hd, ih hrest.symm]

lemma dimensions_append (es fs : List Element) :
    (plain (es ++ fs)).dimensions = (plain es).dimensions ++ (plain fs).dimensions :=
  List.filterMap_append

lemma dimensions_map_dim (ds : List Dimension) : (plain (ds.map .dim)).dimensions = ds := by
  simp [dimensions, plain, List.filterMap_map, Function.comp_def, Element.dimension?]

lemma dimensions_map_attr (as : List Attribute) : (plain (as.map .attr)).dimensions = [] := by
  simp [dimensions, plain, List.filterMap_map, Function.comp_def, Element.dimension?]

lemma lengths_distinct (elements : List Element) :
    (plain (distinct elements)).dimensions.map Dimension.length? =
      (plain elements).dimensions.map Dimension.length? := by
  induction elements using List.reverseRecOn with
  | nil => rfl
  | append_singleton elements e ih =>
    simp only [dimensions, plain, distinct_concat, List.filterMap_append, List.map_append] at ih ⊢
    rw [ih]
    cases e <;> rfl

lemma dimension?_eq_some {name : String} (hnodup : s.names.Nodup) :
    s.dimension? name = some d ↔ d ∈ s.dimensions ∧ d.name = name := by
  constructor
  · intro h
    have hfound := element?_of_dimension? h
    exact ⟨mem_dimensions.mpr (List.mem_of_find?_eq_some hfound), name_of_find? hfound⟩
  · rintro ⟨hd, rfl⟩
    exact dimension?_of_mem hnodup (mem_dimensions.mp hd)

lemma nodup_dimensions (hnodup : s.names.Nodup) : s.dimensions.Nodup := by
  apply List.Nodup.filterMap _ (List.Nodup.of_map _ hnodup)
  intro e f d he hf
  cases e <;> cases f <;> simp_all [Element.dimension?]

def picked (s : Schema) (kept : List String) : List Dimension := kept.filterMap s.dimension?

section Picked

variable {kept : List String} (hnodup : s.names.Nodup)

include hnodup

lemma count_picked (hd : d ∈ s.dimensions) : (s.picked kept).count d = kept.count d.name := by
  rw [picked, List.count_filterMap, List.count]
  apply List.countP_congr
  intro name _
  rw [beq_iff_eq, beq_iff_eq, dimension?_eq_some hnodup, eq_comm]
  exact and_iff_right hd

lemma mem_of_picked (hd : d ∈ s.picked kept) : d ∈ s.dimensions := by
  obtain ⟨name, -, hfound⟩ := List.mem_filterMap.mp hd
  exact ((dimension?_eq_some hnodup).mp hfound).1

variable (hkept : ∀ d ∈ s.dimensions, d.name ∈ kept)

include hkept

lemma toFinset_picked : (s.picked kept).toFinset = s.dimensions.toFinset := by
  ext d
  rw [List.mem_toFinset, List.mem_toFinset]
  constructor
  · exact mem_of_picked hnodup
  · intro hd
    exact List.mem_filterMap.mpr ⟨d.name, hkept d hd, (dimension?_eq_some hnodup).mpr ⟨hd, rfl⟩⟩

lemma length_picked_eq_iff :
    (s.picked kept).length = s.dimensions.length ↔ ∀ d ∈ s.dimensions, kept.count d.name = 1 := by
  have hcount : ∀ d ∈ s.dimensions.toFinset, (s.picked kept).count d = kept.count d.name := by
    intro d hd
    exact count_picked hnodup (List.mem_toFinset.mp hd)
  have hle : ∀ d ∈ s.dimensions.toFinset, 1 ≤ kept.count d.name := by
    intro d hd
    exact List.one_le_count_iff.mpr (hkept d (List.mem_toFinset.mp hd))
  rw [← List.sum_toFinset_count_eq_length, toFinset_picked hnodup hkept, Finset.sum_congr rfl hcount,
    ← List.toFinset_card_of_nodup (nodup_dimensions hnodup), Finset.card_eq_sum_ones, eq_comm,
    Finset.sum_eq_sum_iff_of_le hle]
  simp only [List.mem_toFinset, eq_comm]

lemma lengthProduct_picked : lengthProduct (s.picked kept) = lengthProduct s.dimensions *
    ∏ d ∈ s.dimensions.toFinset, d.length.toInt ^ (kept.count d.name - 1) := by
  rw [lengthProduct, Finset.prod_list_map_count, toFinset_picked hnodup hkept, lengthProduct,
    ← List.prod_toFinset _ (nodup_dimensions hnodup), ← Finset.prod_mul_distrib]
  apply Finset.prod_congr rfl
  intro d hd
  have hd := List.mem_toFinset.mp hd
  have hcount : 1 ≤ kept.count d.name := List.one_le_count_iff.mpr (hkept d hd)
  rw [count_picked hnodup hd, ← pow_succ', Nat.sub_add_cancel hcount]

lemma cellProduct_picked_eq_iff (hpopulated : ∀ d ∈ s.dimensions, d.Populated) :
    cellProduct 1 (s.picked kept) = s.cellCount ↔
      s.cellCount = none ∨ ∀ d ∈ s.dimensions, d.length? = some 1 ∨ kept.count d.name = 1 := by
  have hpicked : ∀ d ∈ s.picked kept, d.Populated := fun d hd => hpopulated d (mem_of_picked hnodup hd)
  have hlengths : ∀ d ∈ s.dimensions.toFinset, 1 ≤ d.length.toInt := by
    intro d hd
    exact (hpopulated d (List.mem_toFinset.mp hd)).one_le
  have hagain : 1 ≤ ∏ d ∈ s.dimensions.toFinset, d.length.toInt ^ (kept.count d.name - 1) := by
    apply Order.one_le_iff_pos.mpr
    apply Finset.prod_pos
    intro d hd
    exact pow_pos (by linarith [hlengths d hd]) _
  rw [cellCount, cellProduct_one hpicked, cellProduct_one hpopulated, lengthProduct_picked hnodup hkept,
    exactInt64_mul_eq_iff (one_le_lengthProduct hpopulated) hagain, prod_pow_eq_one_iff hlengths]
  apply or_congr_right
  simp only [List.mem_toFinset]
  apply forall₂_congr
  intro d hd
  have hcount : 1 ≤ kept.count d.name := List.one_le_count_iff.mpr (hkept d hd)
  rw [(hpopulated d hd).length_eq_one]
  apply or_congr_right
  omega

end Picked

end Schema

end TensorSchema
