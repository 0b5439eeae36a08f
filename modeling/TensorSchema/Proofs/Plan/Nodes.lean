import Mathlib
import TensorSchema.Plan.Basic
import TensorSchema.Proofs.FreshName

/-! Node numbers are 32-bit words, so a plan has at most `2 ^ 32` nodes that can be told apart. -/

namespace TensorSchema

namespace NodeId

@[simp] lemma ofNat_index (id : NodeId) : ofNat id.index = id := by
  simp [ofNat, index]

lemma index_ofNat {n : ℕ} (h : n < 2 ^ 32) : (ofNat n).index = n := by
  simpa [ofNat, index] using h

lemma index_ofNat_le (n : ℕ) : (ofNat n).index ≤ n := by
  simpa [ofNat, index] using Nat.mod_le n 4294967296

lemma index_injective : Function.Injective index := by
  intro a b h
  rw [← ofNat_index a, ← ofNat_index b, h]

end NodeId

namespace Plan

variable {p : Plan} {id : NodeId} {node : Node}

@[simp] lemma contains_iff : p.contains id = true ↔ id.index < p.count := by
  simp [contains]

lemma contains_of_node (h : p.node? id = some node) : p.contains id = true :=
  contains_iff.mpr (List.getElem?_eq_some_iff.mp h).1

lemma exists_node (h : p.contains id = true) : ∃ node, p.node? id = some node :=
  ⟨_, List.getElem?_eq_getElem (contains_iff.mp h)⟩

@[simp] lemma mem_ids : id ∈ p.ids ↔ p.contains id = true := by
  simp only [ids, List.mem_map, List.mem_range, contains_iff]
  constructor
  · rintro ⟨n, hn, rfl⟩
    exact (NodeId.index_ofNat_le n).trans_lt hn
  · intro h
    exact ⟨id.index, h, id.ofNat_index⟩

lemma ids_map_index (h : p.count ≤ 2 ^ 32) : p.ids.map NodeId.index = List.range p.count := by
  rw [ids, List.map_map]
  conv_rhs => rw [← List.map_id (List.range p.count)]
  apply List.map_congr_left
  intro n hn
  exact NodeId.index_ofNat ((List.mem_range.mp hn).trans_le h)

def inputs (p : Plan) (id : NodeId) : List NodeId := ((p.node? id).map Node.inputs).getD []

lemma inputs_of_node (h : p.node? id = some node) : p.inputs id = node.inputs := by
  simp [inputs, h]

lemma numberedName_injective (name : String) : Function.Injective (numberedName name) := by
  have hself : ∀ k : ℕ, name ≠ name ++ "_" ++ toString (k + 1) := by
    intro k h
    have hlen := congrArg String.length h
    simp only [String.length_append] at hlen
    have : "_".length = 1 := rfl
    omega
  intro i j h
  cases i with
  | zero =>
    cases j with
    | zero => rfl
    | succ j => exact (hself j h).elim
  | succ i =>
    cases j with
    | zero => exact (hself i h.symm).elim
    | succ j => exact Nat.repr_injective ((String.append_right_inj _).mp h)

lemma uniqueName_not_mem (p : Plan) (name : String) : p.uniqueName name ∉ p.usedNames :=
  freshName_not_mem p.usedNames (numberedName_injective name)

section AddNode

variable (p : Plan) (node : Node) (name : String)

@[simp] lemma nodes_addNode : (p.addNode node name).1.nodes = p.nodes ++ [node] := rfl

@[simp] lemma names_addNode : (p.addNode node name).1.names = p.names ++ [p.uniqueName name] := rfl

@[simp] lemma usedNames_addNode :
    (p.addNode node name).1.usedNames = p.usedNames ++ [p.uniqueName name] := rfl

@[simp] lemma parentColumn_addNode :
    (p.addNode node name).1.parentColumn = p.parentColumn ++ node.inputs := rfl

@[simp] lemma parentSpans_addNode : (p.addNode node name).1.parentSpans = p.parentSpans ++
    [⟨UInt32.ofNat p.parentColumn.length, UInt32.ofNat node.inputs.length⟩] := rfl

@[simp] lemma count_addNode : (p.addNode node name).1.count = p.count + 1 := by
  simp [count]

end AddNode

lemma node?_addNode_old (name : String) (new : Node) (h : p.contains id = true) :
    (p.addNode new name).1.node? id = p.node? id :=
  List.getElem?_append_left (contains_iff.mp h)

lemma node?_addNode_new (name : String) (new : Node) (h : id.index = p.count) :
    (p.addNode new name).1.node? id = some new := by
  simp [node?, h, count]

end Plan

end TensorSchema
