import Mathlib
import TensorSchema.Plan.Order
import TensorSchema.Proofs.Outcome
import TensorSchema.Proofs.Plan.Consistency

/-! The depth-first walk reaches every node. Where no parent comes later than its consumer, it takes the
nodes in the order in which they were added. -/

namespace TensorSchema.Plan

variable {p : Plan} {fuel : ℕ} {path order result : List NodeId} {node : NodeId}

lemma visit_done (h : node ∈ order) : p.visit (fuel + 1) path order node = .ok order := by
  rw [visit, if_pos h]

lemma visit_all_done {nodes : List NodeId} (h : ∀ m ∈ nodes, m ∈ order) :
    nodes.foldlM (p.visit (fuel + 1) path) order = .ok order := by
  induction nodes with
  | nil => rfl
  | cons m nodes ih =>
    rw [List.foldlM_cons, visit_done (h m List.mem_cons_self)]
    exact ih fun x hx => h x (List.mem_cons_of_mem m hx)

lemma visit_ready (hnew : node ∉ order) (hparents : ∀ m ∈ p.parents node, m ∈ order) :
    p.visit (fuel + 2) [] order node = .ok (order ++ [node]) := by
  rw [visit, if_neg hnew, if_neg List.not_mem_nil, visit_all_done hparents]
  rfl

lemma visit_range (h : p.Consistent) (hcount : p.count ≤ 2 ^ 32) (k : ℕ) (hk : k ≤ p.count) :
    ((List.range k).map NodeId.ofNat).foldlM (p.visit (p.count + 1) []) [] =
      .ok ((List.range k).map NodeId.ofNat) := by
  induction k with
  | zero => rfl
  | succ k ih =>
    have hindex : ∀ n ≤ k, (NodeId.ofNat n).index = n := fun n hn => NodeId.index_ofNat (by omega)
    have hmem : ∀ m : NodeId, m ∈ (List.range k).map NodeId.ofNat ↔ m.index < k := by
      intro m
      constructor
      · intro hm
        obtain ⟨n, hn, rfl⟩ := List.mem_map.mp hm
        have hlt := List.mem_range.mp hn
        rwa [hindex n hlt.le]
      · intro hm
        exact List.mem_map.mpr ⟨m.index, List.mem_range.mpr hm, m.ofNat_index⟩
    have hvisit : p.visit (p.count + 1) [] ((List.range k).map NodeId.ofNat) (.ofNat k) =
        .ok ((List.range k).map NodeId.ofNat ++ [.ofNat k]) := by
      obtain ⟨fuel, hfuel⟩ := Nat.exists_eq_add_of_le' (show 1 ≤ p.count by omega)
      rw [hfuel]
      apply visit_ready
      · rw [hmem, hindex k le_rfl]
        exact lt_irrefl k
      · intro m hm
        have hlt := h.parents_lt _ m hm
        rw [hindex k le_rfl] at hlt
        exact (hmem m).mpr hlt
    rw [List.range_succ, List.map_append, List.foldlM_append, ih (by omega)]
    simp only [List.map_cons, List.map_nil]
    change (p.visit (p.count + 1) [] _ _ >>= pure) = _
    rw [hvisit]
    rfl

lemma sort_eq_ids (h : p.Consistent) (hcount : p.count ≤ 2 ^ 32) : p.sort = .ok p.ids :=
  visit_range h hcount p.count le_rfl

lemma foldlM_extends {f : List NodeId → NodeId → Except PlanError (List NodeId)}
    (hf : ∀ {a m b}, f a m = .ok b → a ⊆ b) {nodes : List NodeId}
    (h : nodes.foldlM f order = .ok result) : order ⊆ result :=
  foldlM_preserves (motive := (order ⊆ ·)) (fun _ _ _ _ hab ha => List.Subset.trans ha (hf hab))
    (List.Subset.refl order) h

lemma visit_cases (h : p.visit (fuel + 1) path order node = .ok result) :
    node ∈ order ∧ result = order ∨
      node ∉ order ∧ node ∉ path ∧
        ∃ before, (p.parents node).foldlM (p.visit fuel (node :: path)) order = .ok before ∧
          result = before ++ [node] := by
  rw [visit] at h
  split_ifs at h with hdone hpath
  · exact Or.inl ⟨hdone, (Except.ok.inj h).symm⟩
  · obtain ⟨before, hparents, hresult⟩ := bind_eq_ok h
    exact Or.inr ⟨hdone, hpath, before, hparents, (Except.ok.inj hresult).symm⟩

lemma visit_extends (h : p.visit fuel path order node = .ok result) : order ⊆ result := by
  induction fuel generalizing path order node result with
  | zero =>
    obtain rfl := Except.ok.inj h
    exact List.Subset.refl _
  | succ fuel ih =>
    rcases visit_cases h with ⟨_, rfl⟩ | ⟨_, _, before, hparents, rfl⟩
    · exact List.Subset.refl _
    · exact List.Subset.trans (foldlM_extends ih hparents) (List.subset_append_left _ _)

lemma visit_mem (h : p.visit (fuel + 1) path order node = .ok result) : node ∈ result := by
  rcases visit_cases h with ⟨hdone, rfl⟩ | ⟨_, _, before, _, rfl⟩
  · exact hdone
  · exact List.mem_append_right _ List.mem_cons_self

lemma visit_all_mem {nodes : List NodeId}
    (h : nodes.foldlM (p.visit (fuel + 1) path) order = .ok result) : nodes ⊆ result := by
  induction nodes generalizing order with
  | nil => exact List.nil_subset _
  | cons m nodes ih =>
    rw [List.foldlM_cons] at h
    obtain ⟨next, hm, hrest⟩ := bind_eq_ok h
    exact List.cons_subset.mpr ⟨foldlM_extends visit_extends hrest (visit_mem hm), ih hrest⟩

lemma sort_complete (h : p.sort = .ok order) {id : NodeId} (hid : p.contains id = true) : id ∈ order :=
  visit_all_mem h (mem_ids.mpr hid)

end TensorSchema.Plan
