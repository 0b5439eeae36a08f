import Mathlib
import TensorSchema.Proofs.Plan.EdgeLists
import TensorSchema.Proofs.Plan.Runs

/-! The columns of a plan that is built by calls have one entry per node or per edge, its names are
distinct, and nothing in it points forward. -/

namespace TensorSchema.Plan

structure Consistent (p : Plan) : Prop where
  names_length : p.names.length = p.count
  spans_length : p.parentSpans.length = p.count
  firstEdges_length : p.firstEdges.length = p.count
  nextEdges_length : p.nextEdges.length = p.edgeTargets.length
  column_length : p.parentColumn.length = p.edgeTargets.length
  column_registered : ∀ m ∈ p.parentColumn, p.contains m = true
  spans_within : ∀ span ∈ p.parentSpans,
    span.start.toNat + span.count.toNat ≤ p.parentColumn.length
  parents_lt : ∀ id, ∀ m ∈ p.parents id, m.index < id.index
  inputs_lt : ∀ id, ∀ m ∈ p.inputs id, m.index < id.index
  names_nodup : p.names.Nodup
  usedNames_eq : p.usedNames = p.names

variable {p : Plan} {node : Node} {id : NodeId}

lemma consistent_empty : Consistent {} where
  names_length := rfl
  spans_length := rfl
  firstEdges_length := rfl
  nextEdges_length := rfl
  column_length := rfl
  column_registered := by simp
  spans_within := by simp
  parents_lt := by simp [parents]
  inputs_lt := by simp [inputs, node?]
  names_nodup := List.nodup_nil
  usedNames_eq := rfl

lemma parents_addNode_old (h : p.Consistent) (node : Node) (name : String) (hid : id.index < p.count) :
    (p.addNode node name).1.parents id = p.parents id := by
  rw [← h.spans_length] at hid
  have hspan := List.getElem?_eq_getElem hid
  have hwithin := h.spans_within _ (List.getElem_mem hid)
  simp only [parents, parentSpans_addNode, parentColumn_addNode, List.getElem?_append_left hid, hspan]
  rw [List.drop_append_of_le_length (by omega), List.take_append_of_le_length]
  rw [List.length_drop]
  omega

lemma parents_addNode_new (h : p.Consistent) (node : Node) (name : String) (hid : id.index = p.count) :
    (p.addNode node name).1.parents id =
      ((p.parentColumn ++ node.inputs).drop (UInt32.ofNat p.parentColumn.length).toNat).take
        (UInt32.ofNat node.inputs.length).toNat := by
  simp [parents, hid, ← h.spans_length]

lemma inputs_addNode_old (node : Node) (name : String) (hid : id.index < p.count) :
    (p.addNode node name).1.inputs id = p.inputs id := by
  simp only [inputs, node?_addNode_old name node (contains_iff.mpr hid)]

lemma inputs_addNode_new (node : Node) (name : String) (hid : id.index = p.count) :
    (p.addNode node name).1.inputs id = node.inputs := by
  simp [inputs, node?_addNode_new name node hid]

lemma inputs_eq_nil (h : p.count ≤ id.index) : p.inputs id = [] := by
  simp only [inputs, node?, List.getElem?_eq_none h, Option.map_none, Option.getD_none]

lemma contains_of_input {m : NodeId} (h : m ∈ p.inputs id) : p.contains id = true := by
  by_contra hid
  rw [inputs_eq_nil (by simpa using hid)] at h
  exact List.not_mem_nil h

lemma parents_eq_nil (h : p.parentSpans.length ≤ id.index) : p.parents id = [] := by
  simp only [parents, List.getElem?_eq_none h]

section AddNode

variable (h : p.Consistent) (hin : ∀ m ∈ node.inputs, p.contains m = true) (name : String)
include h hin

lemma registered_addNode : ∀ m ∈ p.parentColumn ++ node.inputs, m.index < p.count := by
  intro m hm
  rcases List.mem_append.mp hm with hm | hm
  · exact contains_iff.mp (h.column_registered m hm)
  · exact contains_iff.mp (hin m hm)

lemma inputs_registered : ∀ m ∈ node.inputs, m.index < p.firstEdges.length := by
  intro m hm
  rw [h.firstEdges_length]
  exact contains_iff.mp (hin m hm)

lemma parents_lt_addNode (id m : NodeId) (hm : m ∈ (p.addNode node name).1.parents id) :
    m.index < id.index := by
  rcases lt_trichotomy id.index p.count with hid | hid | hid
  · rw [parents_addNode_old h node name hid] at hm
    exact h.parents_lt id m hm
  · rw [parents_addNode_new h node name hid] at hm
    rw [hid]
    exact registered_addNode h hin m (List.mem_of_mem_drop (List.mem_of_mem_take hm))
  · rw [parents_eq_nil (by simpa [h.spans_length] using hid)] at hm
    exact (List.not_mem_nil hm).elim

lemma inputs_lt_addNode (id m : NodeId) (hm : m ∈ (p.addNode node name).1.inputs id) :
    m.index < id.index := by
  rcases lt_trichotomy id.index p.count with hid | hid | hid
  · rw [inputs_addNode_old node name hid] at hm
    exact h.inputs_lt id m hm
  · rw [inputs_addNode_new node name hid] at hm
    rw [hid]
    exact contains_iff.mp (hin m hm)
  · rw [inputs_eq_nil (by simpa using hid)] at hm
    exact (List.not_mem_nil hm).elim

lemma wired_lengths :
    (p.addNode node name).1.firstEdges.length = p.count + 1 ∧
      (p.addNode node name).1.edgeTargets.length = p.edgeTargets.length + node.inputs.length ∧
      (p.addNode node name).1.nextEdges.length = p.edgeTargets.length + node.inputs.length := by
  obtain ⟨hf, ht, hn⟩ :=
    addEdges_lengths (.ofNat p.count) h.nextEdges_length (inputs_registered h hin)
  refine ⟨?_, ht, hn⟩
  simp [addNode, hf, h.firstEdges_length]

lemma consistent_addNode : (p.addNode node name).1.Consistent where
  names_length := by simp [h.names_length]
  spans_length := by simp [h.spans_length]
  firstEdges_length := by simpa using (wired_lengths h hin name).1
  nextEdges_length := by
    obtain ⟨_, ht, hn⟩ := wired_lengths h hin name
    rw [ht, hn]
  column_length := by
    obtain ⟨_, ht, _⟩ := wired_lengths h hin name
    simp [ht, h.column_length]
  column_registered := by
    intro m hm
    rw [contains_iff, count_addNode]
    exact Nat.lt_succ_of_lt (registered_addNode h hin m hm)
  spans_within := by
    intro span hspan
    rw [parentColumn_addNode, List.length_append]
    rcases List.mem_append.mp hspan with hspan | hspan
    · exact (h.spans_within span hspan).trans (Nat.le_add_right _ _)
    · rw [List.mem_singleton.mp hspan]
      have hstart := Nat.mod_le p.parentColumn.length (2 ^ 32)
      have hcount := Nat.mod_le node.inputs.length (2 ^ 32)
      simpa using Nat.add_le_add hstart hcount
  parents_lt := parents_lt_addNode h hin name
  inputs_lt := inputs_lt_addNode h hin name
  names_nodup := by
    rw [names_addNode, ← List.concat_eq_append, List.nodup_concat]
    exact ⟨h.usedNames_eq ▸ p.uniqueName_not_mem name, h.names_nodup⟩
  usedNames_eq := by simp [h.usedNames_eq]

end AddNode

lemma consistent_withSource {old : Schema} (h : p.Consistent) (hid : p.node? id = some (.source old))
    (new : Schema) : (p.withSource id new).Consistent where
  names_length := h.names_length.trans (p.count_withSource id new).symm
  spans_length := h.spans_length.trans (p.count_withSource id new).symm
  firstEdges_length := h.firstEdges_length.trans (p.count_withSource id new).symm
  nextEdges_length := h.nextEdges_length
  column_length := h.column_length
  column_registered := by
    intro m hm
    rw [contains_iff, count_withSource, ← contains_iff]
    exact h.column_registered m hm
  spans_within := h.spans_within
  parents_lt := h.parents_lt
  inputs_lt := by
    intro other m hm
    rw [inputs_withSource new hid] at hm
    exact h.inputs_lt other m hm
  names_nodup := h.names_nodup
  usedNames_eq := h.usedNames_eq

lemma Step.consistent {q : Plan} {answer : Answer} (hs : Step p q answer) (h : p.Consistent) :
    q.Consistent := by
  cases hs with
  | refused error => exact h
  | added node name hin => exact consistent_addNode h hin name
  | replaced id old new hid => exact consistent_withSource h hid new

lemma run_consistent (h : p.Consistent) (calls : List Call) : (p.run calls).1.Consistent :=
  run_preserves Step.consistent h calls

lemma built_consistent (calls : List Call) : (built calls).Consistent :=
  run_consistent consistent_empty calls

end TensorSchema.Plan
