import Mathlib
import TensorSchema.Proofs.Plan.Nodes

namespace TensorSchema.Plan

inductive EdgeList (p : Plan) : UInt32 → List NodeId → Prop
  | done : EdgeList p noEdge []
  | cons {edge next : UInt32} {target : NodeId} {targets : List NodeId} : edge ≠ noEdge →
      p.edgeTargets[edge.toNat]? = some target → p.nextEdges[edge.toNat]? = some next →
      EdgeList p next targets → EdgeList p edge (target :: targets)

variable {p q : Plan} {edge : UInt32} {targets : List NodeId}

lemma EdgeList.unique {others : List NodeId} (h : p.EdgeList edge targets)
    (ho : p.EdgeList edge others) : targets = others := by
  induction h generalizing others with
  | done =>
    cases ho with
    | done => rfl
    | cons hne => exact (hne rfl).elim
  | cons hne ht hn _ ih =>
    cases ho with
    | done => exact (hne rfl).elim
    | cons _ ht' hn' ho =>
      obtain rfl := Option.some.inj (ht.symm.trans ht')
      obtain rfl := Option.some.inj (hn.symm.trans hn')
      rw [ih ho]

lemma EdgeList.edges (h : p.EdgeList edge targets) :
    ∃ edges : List ℕ, edges.length = targets.length ∧ edges.Nodup ∧ ∀ i ∈ edges,
      i < p.nextEdges.length ∧ ∃ (e : UInt32) (rest : List NodeId),
        e.toNat = i ∧ p.EdgeList e rest ∧ rest.length ≤ targets.length := by
  induction h with
  | done => exact ⟨[], rfl, List.nodup_nil, by simp⟩
  | @cons edge next target targets hne ht hn hl ih =>
    obtain ⟨edges, hlen, hnodup, hedges⟩ := ih
    refine ⟨edge.toNat :: edges, by simp [hlen], List.nodup_cons.mpr ⟨?_, hnodup⟩, ?_⟩
    · intro hmem
      -- a list met again would have to be shorter than itself
      obtain ⟨_, e, rest, he, hrest, hle⟩ := hedges _ hmem
      obtain rfl := UInt32.toNat_inj.mp he
      have hself := hrest.unique (.cons hne ht hn hl)
      rw [hself, List.length_cons] at hle
      omega
    · intro i hi
      rcases List.mem_cons.mp hi with rfl | hi
      · exact ⟨(List.getElem?_eq_some_iff.mp hn).1, edge, _, rfl, .cons hne ht hn hl, le_rfl⟩
      · obtain ⟨hlt, e, rest, he, hrest, hle⟩ := hedges i hi
        exact ⟨hlt, e, rest, he, hrest, hle.trans (by simp)⟩

lemma EdgeList.length_le (h : p.EdgeList edge targets) : targets.length ≤ p.nextEdges.length := by
  obtain ⟨edges, hlen, hnodup, hedges⟩ := h.edges
  have hsub : edges ⊆ List.range p.nextEdges.length := fun i hi => List.mem_range.mpr (hedges i hi).1
  simpa [hlen] using hnodup.length_le_of_subset hsub

lemma EdgeList.followEdges_eq (h : p.EdgeList edge targets) {fuel : ℕ} (hf : targets.length ≤ fuel) :
    p.followEdges fuel edge = targets := by
  induction h generalizing fuel with
  | done => cases fuel <;> simp [followEdges]
  | cons hne ht hn _ ih =>
    cases fuel with
    | zero => simp at hf
    | succ fuel => simp [followEdges, hne, ht, hn, ih (by simpa using hf)]

lemma EdgeList.children_eq {id : NodeId} (h : p.EdgeList edge targets)
    (hfirst : p.firstEdges[id.index]? = some edge) : p.children id = targets := by
  simp only [children, hfirst]
  exact h.followEdges_eq h.length_le

lemma getElem?_extended {α : Type} {xs ys : List α} {i : ℕ} {a : α} (h : xs <+: ys)
    (ha : xs[i]? = some a) : ys[i]? = some a := by
  obtain ⟨zs, rfl⟩ := h
  rw [List.getElem?_append_left (List.getElem?_eq_some_iff.mp ha).1, ha]

lemma EdgeList.mono (h : p.EdgeList edge targets) (ht : p.edgeTargets <+: q.edgeTargets)
    (hn : p.nextEdges <+: q.nextEdges) : q.EdgeList edge targets := by
  induction h with
  | done => exact .done
  | cons hne he hx _ ih =>
    exact .cons hne (getElem?_extended ht he) (getElem?_extended hn hx) ih

def Lists (p : Plan) (consumers : NodeId → List NodeId) : Prop :=
  ∀ id edge, p.firstEdges[id.index]? = some edge → p.EdgeList edge (consumers id)

section AddEdge

variable {parent : NodeId} {consumers : NodeId → List NodeId} (target : NodeId)

lemma addEdge_eq (h : parent.index < p.firstEdges.length) :
    addEdge target p parent = { p with
      firstEdges := p.firstEdges.set parent.index (UInt32.ofNat p.edgeTargets.length)
      edgeTargets := p.edgeTargets ++ [target]
      nextEdges := p.nextEdges ++ [p.firstEdges[parent.index]] } := by
  simp [addEdge, List.getElem?_eq_getElem h]

lemma edgeList_head (hlen : p.nextEdges.length = p.edgeTargets.length)
    (hroom : p.edgeTargets.length + 1 < 2 ^ 32) (hparent : parent.index < p.firstEdges.length)
    (hl : p.EdgeList p.firstEdges[parent.index] targets) :
    (addEdge target p parent).EdgeList (UInt32.ofNat p.edgeTargets.length) (target :: targets) := by
  have hnum : (UInt32.ofNat p.edgeTargets.length).toNat = p.edgeTargets.length := by
    simpa using (show p.edgeTargets.length < 4294967296 by omega)
  have hold : (addEdge target p parent).EdgeList p.firstEdges[parent.index] targets := by
    rw [addEdge_eq target hparent]
    exact hl.mono (List.prefix_append ..) (List.prefix_append ..)
  refine .cons ?_ ?_ ?_ hold
  · intro he
    have hend := congrArg UInt32.toNat he
    rw [hnum] at hend
    simp [noEdge] at hend
    omega
  · rw [addEdge_eq target hparent, hnum]
    simp
  · rw [addEdge_eq target hparent, hnum, ← hlen]
    simp

lemma Lists.addEdge (h : p.Lists consumers) (hlen : p.nextEdges.length = p.edgeTargets.length)
    (hroom : p.edgeTargets.length + 1 < 2 ^ 32) (hparent : parent.index < p.firstEdges.length) :
    (addEdge target p parent).Lists
      fun id => if id = parent then target :: consumers id else consumers id := by
  intro id edge hfirst
  by_cases hid : id = parent
  · subst hid
    have hedge : edge = UInt32.ofNat p.edgeTargets.length := by
      rw [addEdge_eq target hparent] at hfirst
      simpa [hparent] using hfirst.symm
    simp only [hedge, if_true]
    exact edgeList_head target hlen hroom hparent (h id _ (List.getElem?_eq_getElem hparent))
  · have hi : parent.index ≠ id.index := fun he => hid (NodeId.index_injective he.symm)
    rw [addEdge_eq target hparent] at hfirst ⊢
    simp only [hid, if_false]
    exact (h id edge (by simpa [List.getElem?_set_ne hi] using hfirst)).mono
      (List.prefix_append ..) (List.prefix_append ..)

lemma addEdges_lengths {ms : List NodeId} (hlen : p.nextEdges.length = p.edgeTargets.length)
    (hms : ∀ m ∈ ms, m.index < p.firstEdges.length) :
    (ms.foldl (addEdge target) p).firstEdges.length = p.firstEdges.length ∧
      (ms.foldl (addEdge target) p).edgeTargets.length = p.edgeTargets.length + ms.length ∧
      (ms.foldl (addEdge target) p).nextEdges.length = p.edgeTargets.length + ms.length := by
  induction ms generalizing p with
  | nil => exact ⟨rfl, rfl, hlen⟩
  | cons m ms ih =>
    have hm := hms m List.mem_cons_self
    have hfirst : (addEdge target p m).firstEdges.length = p.firstEdges.length := by
      simp [addEdge_eq target hm]
    have htargets : (addEdge target p m).edgeTargets.length = p.edgeTargets.length + 1 := by
      simp [addEdge_eq target hm]
    have hnext : (addEdge target p m).nextEdges.length = (addEdge target p m).edgeTargets.length := by
      simp [addEdge_eq target hm, hlen]
    obtain ⟨hf, ht, hn⟩ := ih hnext (fun x hx => hfirst ▸ hms x (List.mem_cons_of_mem m hx))
    rw [List.foldl_cons, List.length_cons]
    exact ⟨hf.trans hfirst, by omega, by omega⟩

lemma Lists.addEdges {ms : List NodeId} (h : p.Lists consumers)
    (hlen : p.nextEdges.length = p.edgeTargets.length)
    (hroom : p.edgeTargets.length + ms.length < 2 ^ 32)
    (hms : ∀ m ∈ ms, m.index < p.firstEdges.length) :
    (ms.foldl (Plan.addEdge target) p).Lists
      fun id => List.replicate (ms.count id) target ++ consumers id := by
  induction ms generalizing p consumers with
  | nil => simpa using h
  | cons m ms ih =>
    have hm := hms m List.mem_cons_self
    rw [List.length_cons] at hroom
    have hl := h.addEdge target hlen (by omega) hm
    obtain ⟨hf, ht, hn⟩ := addEdges_lengths target hlen (show ∀ x ∈ [m], x.index < _ by simpa using hm)
    simp only [List.foldl_cons, List.foldl_nil, List.length_singleton] at hf ht hn
    have hstep := ih hl (hn.trans ht.symm) (by omega)
      (fun x hx => hf ▸ hms x (List.mem_cons_of_mem m hx))
    have hcount : (fun id => List.replicate (ms.count id) target ++
        (if id = m then target :: consumers id else consumers id)) =
        fun id => List.replicate ((m :: ms).count id) target ++ consumers id := by
      funext id
      by_cases hid : id = m
      · subst hid
        rw [if_pos rfl, List.count_cons_self, List.replicate_succ', List.append_assoc]
        rfl
      · rw [if_neg hid, List.count_cons_of_ne (Ne.symm hid)]
    rwa [hcount] at hstep

end AddEdge

end TensorSchema.Plan
