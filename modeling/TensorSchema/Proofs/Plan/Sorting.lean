import Mathlib
import TensorSchema.Proofs.Plan.Order

namespace TensorSchema.Plan

open Relation (TransGen)

def ParentOf (p : Plan) (m id : NodeId) : Prop := m ∈ p.parents id

def OnCycle (p : Plan) (id : NodeId) : Prop := TransGen p.ParentOf id id

def Acyclic (p : Plan) : Prop := ∀ id, ¬ p.OnCycle id

structure Sorted (p : Plan) (order : List NodeId) : Prop where
  nodup : order.Nodup
  registered : ∀ id ∈ order, p.contains id = true
  parents_first : ∀ before id after, order = before ++ id :: after → ∀ m ∈ p.parents id, m ∈ before

/-- A path that a walk can have taken, with fuel enough for every longer one. -/
structure Room (p : Plan) (fuel : ℕ) (path : List NodeId) : Prop where
  nodup : path.Nodup
  registered : ∀ id ∈ path, p.contains id = true
  enough : p.count < fuel + path.length

variable {p : Plan} {fuel : ℕ} {path order result before : List NodeId} {node id m : NodeId}
  {error : PlanError}

lemma length_le_count (hnodup : path.Nodup) (h : ∀ id ∈ path, p.contains id = true) :
    path.length ≤ p.count := by
  have hsub : path.map NodeId.index ⊆ List.range p.count := by
    intro i hi
    obtain ⟨id, hid, rfl⟩ := List.mem_map.mp hi
    exact List.mem_range.mpr (contains_iff.mp (h id hid))
  simpa using (hnodup.map NodeId.index_injective).length_le_of_subset hsub

lemma room_start (p : Plan) : p.Room (p.count + 1) [] := ⟨List.nodup_nil, by simp, by simp⟩

lemma Room.pos (h : p.Room fuel path) : 0 < fuel := by
  have hlength := length_le_count h.nodup h.registered
  have henough := h.enough
  omega

lemma Room.cons (h : p.Room (fuel + 1) path) (hnew : node ∉ path) (hnode : p.contains node = true) :
    p.Room fuel (node :: path) where
  nodup := List.nodup_cons.mpr ⟨hnew, h.nodup⟩
  registered := List.forall_mem_cons.mpr ⟨hnode, h.registered⟩
  enough := by
    have henough := h.enough
    rw [List.length_cons]
    omega

lemma Room.perm {path' : List NodeId} (h : p.Room fuel path) (hperm : path.Perm path') :
    p.Room fuel path' where
  nodup := hperm.nodup_iff.mp h.nodup
  registered id hid := h.registered id (hperm.mem_iff.mpr hid)
  enough := hperm.length_eq ▸ h.enough

lemma visit_new (hnew : node ∉ order) (hpath : node ∉ path) :
    p.visit (fuel + 1) path order node =
      ((p.parents node).foldlM (p.visit fuel (node :: path)) order).map (· ++ [node]) := by
  rw [visit, if_neg hnew, if_neg hpath]
  rfl

lemma visit_met (hnew : node ∉ order) (hpath : node ∈ path) :
    p.visit (fuel + 1) path order node = .error (.cycle ((p.name? node).getD "")) := by
  rw [visit, if_neg hnew, if_pos hpath]

lemma visit_avoids (h : p.visit fuel path order node = .ok result) (hid : id ∈ path)
    (hresult : id ∈ result) : id ∈ order := by
  induction fuel generalizing path order node result with
  | zero =>
    obtain rfl := Except.ok.inj h
    exact hresult
  | succ fuel ih =>
    rcases visit_cases h with ⟨_, rfl⟩ | ⟨_, hpath, before, hparents, rfl⟩
    · exact hresult
    · have hbefore : id ∈ before := by
        rcases List.mem_append.mp hresult with hbefore | hlast
        · exact hbefore
        · rw [List.mem_singleton.mp hlast] at hid
          exact (hpath hid).elim
      refine foldlM_preserves (motive := fun l => id ∈ l → id ∈ order) ?_ (fun h => h) hparents hbefore
      intro a m b _ hstep ha hb
      exact ha (ih hstep (List.mem_cons_of_mem node hid) hb)

lemma visits_avoid {nodes : List NodeId} (h : nodes.foldlM (p.visit fuel path) order = .ok result)
    (hid : id ∈ path) (hresult : id ∈ result) : id ∈ order := by
  refine foldlM_preserves (motive := fun l => id ∈ l → id ∈ order) ?_ (fun h => h) h hresult
  intro a m b _ hstep ha hb
  exact ha (visit_avoids hstep hid hb)

lemma sorted_nil (p : Plan) : p.Sorted [] := ⟨List.nodup_nil, by simp, by simp⟩

lemma Sorted.concat (h : p.Sorted order) (hnew : node ∉ order) (hnode : p.contains node = true)
    (hparents : ∀ m ∈ p.parents node, m ∈ order) : p.Sorted (order ++ [node]) where
  nodup := by
    rw [← List.concat_eq_append, List.nodup_concat]
    exact ⟨hnew, h.nodup⟩
  registered := List.forall_mem_append.mpr ⟨h.registered, List.forall_mem_singleton.mpr hnode⟩
  parents_first := by
    intro before id after hsplit m hm
    rcases List.eq_nil_or_concat after with rfl | ⟨rest, last, rfl⟩
    · obtain ⟨rfl, hlast⟩ := List.append_inj' hsplit rfl
      obtain rfl : node = id := by simpa using hlast
      exact hparents m hm
    · have hsplit' : order ++ [node] = (before ++ id :: rest) ++ [last] := by simpa using hsplit
      obtain ⟨horder, _⟩ := List.append_inj' hsplit' rfl
      exact h.parents_first before id rest horder m hm

section Registered

variable (hregistered : ∀ id, ∀ m ∈ p.parents id, p.contains m = true)
include hregistered

lemma visit_sorted (hroom : p.Room fuel path) (hnode : p.contains node = true)
    (hsorted : p.Sorted order) (h : p.visit fuel path order node = .ok result) : p.Sorted result := by
  induction fuel generalizing path order node result with
  | zero =>
    obtain rfl := Except.ok.inj h
    exact hsorted
  | succ fuel ih =>
    rcases visit_cases h with ⟨_, rfl⟩ | ⟨hnew, hpath, before, hparents, rfl⟩
    · exact hsorted
    · have hnext := hroom.cons hpath hnode
      obtain ⟨rest, rfl⟩ := Nat.exists_eq_add_of_le' hnext.pos
      have hbefore : p.Sorted before := by
        refine foldlM_preserves ?_ hsorted hparents
        intro a m b hm hstep ha
        exact ih hnext (hregistered node m hm) ha hstep
      apply hbefore.concat _ hnode (visit_all_mem hparents)
      intro hmem
      exact hnew (visits_avoid hparents List.mem_cons_self hmem)

lemma visit_fuel (hroom : p.Room fuel path) (hnode : p.contains node = true) (extra : ℕ) :
    p.visit (fuel + extra) path order node = p.visit fuel path order node := by
  induction fuel generalizing path order node with
  | zero => exact (lt_irrefl 0 hroom.pos).elim
  | succ fuel ih =>
    rw [Nat.add_right_comm]
    by_cases hdone : node ∈ order
    · rw [visit_done hdone, visit_done hdone]
    by_cases hpath : node ∈ path
    · rw [visit_met hdone hpath, visit_met hdone hpath]
    · rw [visit_new hdone hpath, visit_new hdone hpath]
      congr 1
      apply foldlM_congr
      intro other m hm
      exact ih (hroom.cons hpath hnode) (hregistered node m hm)

lemma sort_fuel {depth : ℕ} (hdepth : p.count < depth) :
    p.ids.foldlM (p.visit depth []) [] = p.sort := by
  obtain ⟨extra, rfl⟩ := Nat.exists_eq_add_of_le (Nat.succ_le_of_lt hdepth)
  apply foldlM_congr
  intro order id hid
  exact visit_fuel hregistered p.room_start (mem_ids.mp hid) extra

lemma sort_sorted (h : p.sort = .ok order) : p.Sorted order := by
  refine foldlM_preserves ?_ p.sorted_nil h
  intro a id b hid hstep ha
  exact visit_sorted hregistered p.room_start (mem_ids.mp hid) ha hstep

end Registered

lemma onCycle_of_chain (hchain : List.IsChain p.ParentOf (node :: path)) (hnode : node ∈ path) :
    p.OnCycle node := by
  have hclosed := hchain.imp (S := TransGen p.ParentOf) fun _ _ => .single
  rw [List.isChain_iff_pairwise] at hclosed
  exact (List.pairwise_cons.mp hclosed).1 node hnode

lemma visit_error (hchain : List.IsChain p.ParentOf (node :: path))
    (h : p.visit fuel path order node = .error error) :
    ∃ id, p.OnCycle id ∧ error = .cycle ((p.name? id).getD "") := by
  induction fuel generalizing path order node with
  | zero => cases h
  | succ fuel ih =>
    by_cases hdone : node ∈ order
    · rw [visit_done hdone] at h
      cases h
    by_cases hpath : node ∈ path
    · rw [visit_met hdone hpath] at h
      exact ⟨node, onCycle_of_chain hchain hpath, (Except.error.inj h).symm⟩
    · rw [visit_new hdone hpath, map_eq_error] at h
      obtain ⟨m, hm, before, hfails⟩ := foldlM_eq_error h
      exact ih (List.isChain_cons_cons.mpr ⟨hm, hchain⟩) hfails

lemma sort_error (h : p.sort = .error error) :
    ∃ id, p.OnCycle id ∧ error = .cycle ((p.name? id).getD "") := by
  obtain ⟨id, _, order, hfails⟩ := foldlM_eq_error h
  exact visit_error (List.isChain_singleton id) hfails

lemma Sorted.idxOf_lt (h : p.Sorted order) (hid : id ∈ order) (hm : p.ParentOf m id) :
    m ∈ order ∧ order.idxOf m < order.idxOf id := by
  obtain ⟨before, after, rfl⟩ := List.append_of_mem hid
  have hbefore := h.parents_first before id after rfl m hm
  have hfirst : id ∉ before := by
    intro hmem
    exact (List.nodup_append.mp h.nodup).2.2 id hmem id List.mem_cons_self rfl
  refine ⟨List.mem_append_left _ hbefore, ?_⟩
  rw [List.idxOf_append_of_mem hbefore, List.idxOf_append_of_notMem hfirst, List.idxOf_cons_self]
  simpa using List.idxOf_lt_length_iff.mpr hbefore

lemma Sorted.idxOf_lt_of_trans (h : p.Sorted order) (hm : TransGen p.ParentOf m id)
    (hid : id ∈ order) : m ∈ order ∧ order.idxOf m < order.idxOf id := by
  induction hm with
  | single hstep => exact h.idxOf_lt hid hstep
  | tail _ hstep ih =>
    obtain ⟨hmid, hlt⟩ := h.idxOf_lt hid hstep
    obtain ⟨hmem, hlt'⟩ := ih hmid
    exact ⟨hmem, hlt'.trans hlt⟩

lemma OnCycle.registered (hregistered : ∀ id, ∀ m ∈ p.parents id, p.contains m = true)
    (h : p.OnCycle id) : p.contains id = true := by
  obtain ⟨next, hstep, _⟩ := Relation.TransGen.head'_iff.mp h
  exact hregistered next id hstep

lemma sort_acyclic (hregistered : ∀ id, ∀ m ∈ p.parents id, p.contains m = true)
    (h : p.sort = .ok order) : p.Acyclic := by
  intro id hcycle
  have hid := sort_complete h (hcycle.registered hregistered)
  exact lt_irrefl _ ((sort_sorted hregistered h).idxOf_lt_of_trans hcycle hid).2

/-- Whatever the graph, the walk goes no deeper than the plan has nodes. It ends with all nodes in an
order in which parents come first if there is no cycle, and otherwise with a node on a cycle. -/
theorem sort_correct (p : Plan) (hregistered : ∀ id, ∀ m ∈ p.parents id, p.contains m = true) :
    (∀ depth > p.count, p.ids.foldlM (p.visit depth []) [] = p.sort) ∧
    ((∃ order, p.sort = .ok order) ↔ p.Acyclic) ∧
    (∀ order, p.sort = .ok order → order.Nodup ∧ (∀ id, id ∈ order ↔ p.contains id = true) ∧
      ∀ before id after, order = before ++ id :: after → ∀ m ∈ p.parents id, m ∈ before) ∧
    (¬ p.Acyclic → ∃ id name, p.OnCycle id ∧ p.sort = .error (.cycle name) ∧
      (p.count ≤ p.names.length → p.name? id = some name)) := by
  refine ⟨fun depth => sort_fuel hregistered, ⟨?_, ?_⟩, ?_, ?_⟩
  · rintro ⟨order, h⟩
    exact sort_acyclic hregistered h
  · intro hacyclic
    cases h : p.sort with
    | ok order => exact ⟨order, rfl⟩
    | error error =>
      obtain ⟨id, hcycle, _⟩ := sort_error h
      exact (hacyclic id hcycle).elim
  · intro order h
    have hsorted := sort_sorted hregistered h
    exact ⟨hsorted.nodup, fun id => ⟨hsorted.registered id, sort_complete h⟩, hsorted.parents_first⟩
  · intro hcyclic
    cases h : p.sort with
    | ok order => exact (hcyclic (sort_acyclic hregistered h)).elim
    | error error =>
      obtain ⟨id, hcycle, rfl⟩ := sort_error h
      refine ⟨id, _, hcycle, rfl, fun hnames => ?_⟩
      have hid := contains_iff.mp (hcycle.registered hregistered)
      have hname : p.name? id = some _ := List.getElem?_eq_getElem (hid.trans_le hnames)
      rw [hname, Option.getD_some]

def leaf : Node := .source (.new "")

def forward : Plan where
  nodes := [leaf, leaf, leaf]
  names := ["total", "left", "pair"]
  parentColumn := [⟨2⟩, ⟨2⟩, ⟨1⟩]
  parentSpans := [⟨0, 2⟩, ⟨0, 0⟩, ⟨2, 1⟩]

def looped : Plan where
  nodes := [leaf, leaf, leaf]
  names := ["outside", "left", "right"]
  parentColumn := [⟨1⟩, ⟨2⟩, ⟨1⟩]
  parentSpans := [⟨0, 1⟩, ⟨1, 1⟩, ⟨2, 1⟩]

lemma mem_parentColumn (h : m ∈ p.parents id) : m ∈ p.parentColumn := by
  unfold parents at h
  split at h
  next => exact List.mem_of_mem_drop (List.mem_of_mem_take h)
  next => cases h

theorem forward_looped_sort :
    forward.sort = .ok [⟨1⟩, ⟨2⟩, ⟨0⟩] ∧ forward.Acyclic ∧
    looped.sort = .error (.cycle "left") ∧ ¬ looped.Acyclic ∧
    ∃ id, looped.OnCycle id ∧ looped.name? id = some "left" := by
  have hforward : ∀ m ∈ forward.parentColumn, forward.contains m = true := by decide
  have hlooped : ∀ m ∈ looped.parentColumn, looped.contains m = true := by decide
  have horder : forward.sort = .ok [⟨1⟩, ⟨2⟩, ⟨0⟩] := by decide
  have hcycle : looped.sort = .error (.cycle "left") := by decide
  obtain ⟨_, hiff, _⟩ := sort_correct forward fun _ _ hm => hforward _ (mem_parentColumn hm)
  obtain ⟨_, hiff', _, hnamed⟩ := sort_correct looped fun _ _ hm => hlooped _ (mem_parentColumn hm)
  have hcyclic : ¬ looped.Acyclic := by
    intro hacyclic
    obtain ⟨order, hok⟩ := hiff'.mpr hacyclic
    rw [hcycle] at hok
    cases hok
  obtain ⟨id, name, hid, herror, hname⟩ := hnamed hcyclic
  obtain rfl : name = "left" := PlanError.cycle.inj (Except.error.inj (herror.symm.trans hcycle))
  exact ⟨horder, hiff.mp ⟨_, horder⟩, hcycle, hcyclic, id, hid, hname (by decide)⟩

end TensorSchema.Plan
