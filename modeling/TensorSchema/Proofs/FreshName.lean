import Mathlib
import TensorSchema.FreshName

namespace TensorSchema

variable (taken : List String) {candidate : ℕ → String}

lemma searchFresh_index (candidate : ℕ → String) (fuel k : ℕ) :
    ∃ j, searchFresh taken candidate fuel k = candidate j ∧ (candidate j ∉ taken ∨ j = k + fuel) ∧
      ∀ i, k ≤ i → i < j → candidate i ∈ taken := by
  induction fuel generalizing k with
  | zero => exact ⟨k, rfl, Or.inr rfl, by omega⟩
  | succ fuel ih =>
    by_cases hk : candidate k ∈ taken
    · obtain ⟨j, hj, hfree, htaken⟩ := ih (k + 1)
      refine ⟨j, by rw [searchFresh, if_pos hk, hj], hfree.imp_right (by omega), ?_⟩
      intro i hi hij
      rcases Nat.eq_or_lt_of_le hi with rfl | hi
      · exact hk
      · exact htaken i hi hij
    · exact ⟨k, by rw [searchFresh, if_neg hk], Or.inl hk, by omega⟩

variable {taken} in
lemma le_card_of_taken {k : ℕ} (hinj : Function.Injective candidate)
    (h : ∀ i < k, candidate i ∈ taken) : k ≤ taken.toFinset.card := by
  have hsub : (Finset.range k).image candidate ⊆ taken.toFinset := by
    intro name hname
    obtain ⟨i, hi, rfl⟩ := Finset.mem_image.mp hname
    exact List.mem_toFinset.mpr (h i (Finset.mem_range.mp hi))
  simpa [Finset.card_image_of_injective _ hinj] using Finset.card_le_card hsub

lemma exists_free_candidate (hinj : Function.Injective candidate) :
    ∃ i, i ≤ taken.length ∧ candidate i ∉ taken := by
  by_contra hnone
  push Not at hnone
  have hrounds := le_card_of_taken hinj fun i hi => hnone i (Nat.lt_succ_iff.mp hi)
  have hlen := taken.toFinset_card_le
  omega

lemma freshName_least (hinj : Function.Injective candidate) :
    ∃ k, freshName taken candidate = candidate k ∧ candidate k ∉ taken ∧
      ∀ i < k, candidate i ∈ taken := by
  obtain ⟨k, hk, hfree, htaken⟩ := searchFresh_index taken candidate taken.length 0
  refine ⟨k, hk, ?_, fun i hi => htaken i (Nat.zero_le i) hi⟩
  rcases hfree with hfree | rfl
  · exact hfree
  · obtain ⟨i, hi, hfree⟩ := exists_free_candidate taken hinj
    rcases Nat.eq_or_lt_of_le hi with rfl | hi
    · simpa using hfree
    · exact (hfree (htaken i (Nat.zero_le i) (by omega))).elim

lemma freshName_not_mem (hinj : Function.Injective candidate) : freshName taken candidate ∉ taken := by
  obtain ⟨k, hk, hfree, _⟩ := freshName_least taken hinj
  rwa [hk]

end TensorSchema
