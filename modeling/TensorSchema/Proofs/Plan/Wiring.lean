import Mathlib
import TensorSchema.Proofs.Plan.Consistency

namespace TensorSchema.Plan

/-- Every node and every edge has a 32-bit number of its own, other than the one that ends a list. -/
def Fits (p : Plan) : Prop := p.count ≤ 2 ^ 32 ∧ p.edgeTargets.length < 2 ^ 32

instance (p : Plan) : Decidable p.Fits := inferInstanceAs (Decidable (_ ∧ _))

def consumers (p : Plan) (id : NodeId) : List NodeId :=
  p.ids.reverse.flatMap fun c => List.replicate ((p.inputs c).count id) c

variable {p q : Plan} {node : Node} {id : NodeId} {name : String}

lemma ids_pairwise (h : p.count ≤ 2 ^ 32) : p.ids.Pairwise fun a b => a.index < b.index := by
  rw [← List.pairwise_map (f := NodeId.index), ids_map_index h]
  exact List.pairwise_lt_range

lemma ids_nodup (h : p.count ≤ 2 ^ 32) : p.ids.Nodup :=
  (ids_pairwise h).imp fun hlt heq => absurd (congrArg NodeId.index heq) hlt.ne

lemma consumers_sorted (h : p.count ≤ 2 ^ 32) (id : NodeId) :
    (p.consumers id).Pairwise fun a b => b.index ≤ a.index := by
  refine List.pairwise_flatMap.mpr ⟨?_, ?_⟩
  · intro c _
    exact List.pairwise_replicate.mpr (Or.inr le_rfl)
  · rw [List.pairwise_reverse]
    refine (ids_pairwise h).imp ?_
    intro a b hlt x hx y hy
    rw [List.eq_of_mem_replicate hx, List.eq_of_mem_replicate hy]
    exact hlt.le

lemma count_flatMap_replicate {l : List NodeId} (hl : l.Nodup) (n : NodeId → ℕ) (c : NodeId) :
    (l.flatMap fun x => List.replicate (n x) x).count c = if c ∈ l then n c else 0 := by
  induction l with
  | nil => simp
  | cons x l ih =>
    obtain ⟨hx, hl⟩ := List.nodup_cons.mp hl
    rw [List.flatMap_cons, List.count_append, ih hl, List.count_replicate]
    by_cases hc : c = x
    · subst hc
      simp [hx]
    · simp [hc, Ne.symm hc]

lemma count_consumers (h : p.count ≤ 2 ^ 32) (id c : NodeId) :
    (p.consumers id).count c = (p.inputs c).count id := by
  rw [consumers, count_flatMap_replicate (List.nodup_reverse.mpr (ids_nodup h))]
  by_cases hc : p.contains c = true
  · simp [hc]
  · rw [if_neg (by simpa using hc), inputs_eq_nil (by simpa using hc), List.count_nil]

lemma mem_consumers {m : NodeId} : id ∈ p.consumers m ↔ m ∈ p.inputs id := by
  simp only [consumers, List.mem_flatMap, List.mem_reverse, mem_ids, List.mem_replicate]
  constructor
  · rintro ⟨c, _, hne, rfl⟩
    exact List.count_pos_iff.mp (Nat.pos_of_ne_zero hne)
  · intro hm
    exact ⟨id, contains_of_input hm, (List.count_pos_iff.mpr hm).ne', rfl⟩

structure Wired (p : Plan) : Prop where
  parents_eq : ∀ id, p.parents id = p.inputs id
  lists : p.Lists p.consumers

lemma wired_empty : Wired {} where
  parents_eq _ := rfl
  lists := by simp [Lists]

lemma Wired.withSource {old : Schema} (h : p.Wired) (hid : p.node? id = some (.source old))
    (new : Schema) : (p.withSource id new).Wired where
  parents_eq other := by
    rw [inputs_withSource new hid]
    exact h.parents_eq other
  lists := by
    intro other edge hfirst
    have hids : (p.withSource id new).ids = p.ids := by simp only [ids, count_withSource]
    have hconsumers : (p.withSource id new).consumers other = p.consumers other := by
      simp only [consumers, hids, inputs_withSource new hid]
    rw [hconsumers]
    exact (h.lists other edge hfirst).mono (List.prefix_refl _) (List.prefix_refl _)

section AddNode

variable (h : p.Consistent) (hin : ∀ m ∈ node.inputs, p.contains m = true)

lemma ids_addNode (p : Plan) (node : Node) (name : String) :
    (p.addNode node name).1.ids = p.ids ++ [.ofNat p.count] := by
  simp [ids, List.range_succ]

lemma consumers_addNode (hroom : p.count < 2 ^ 32) (node : Node) (name : String) (id : NodeId) :
    (p.addNode node name).1.consumers id =
      List.replicate (node.inputs.count id) (.ofNat p.count) ++ p.consumers id := by
  rw [consumers, ids_addNode, List.reverse_append, List.reverse_singleton, List.singleton_append,
    List.flatMap_cons, inputs_addNode_new node name (NodeId.index_ofNat hroom), consumers]
  congr 1
  apply List.flatMap_congr
  intro c hc
  rw [inputs_addNode_old node name (contains_iff.mp (mem_ids.mp (List.mem_reverse.mp hc)))]

include h in
lemma consumers_eq_nil (hid : p.count ≤ id.index) : p.consumers id = [] := by
  apply List.eq_nil_iff_forall_not_mem.mpr
  intro c hc
  have hm := mem_consumers.mp hc
  have hlt := h.inputs_lt c id hm
  have hcount := contains_iff.mp (contains_of_input hm)
  omega

include h hin

lemma lists_addNode (hw : p.Lists p.consumers) (hfits : (p.addNode node name).1.Fits) :
    (p.addNode node name).1.Lists (p.addNode node name).1.consumers := by
  obtain ⟨hcount, hedges⟩ := hfits
  rw [count_addNode] at hcount
  rw [(wired_lengths h hin name).2.1] at hedges
  have hms := inputs_registered h hin
  have hlists := hw.addEdges (.ofNat p.count) h.nextEdges_length hedges hms
  have hlen := (addEdges_lengths (.ofNat p.count) h.nextEdges_length hms).1
  rw [h.firstEdges_length] at hlen
  intro id edge hfirst
  have hfirst : ((node.inputs.foldl (addEdge (.ofNat p.count)) p).firstEdges ++
      [noEdge])[id.index]? = some edge := hfirst
  rw [consumers_addNode (by omega)]
  rcases Nat.lt_or_ge id.index p.count with hid | hid
  · rw [List.getElem?_append_left (by omega)] at hfirst
    exact (hlists id edge hfirst).mono (List.prefix_refl _) (List.prefix_refl _)
  · have hnone : id ∉ node.inputs := fun hm => by
      have := contains_iff.mp (hin id hm)
      omega
    rw [List.count_eq_zero.mpr hnone, consumers_eq_nil h hid]
    obtain rfl : edge = noEdge := by
      rw [List.getElem?_append_right (by omega)] at hfirst
      exact List.mem_singleton.mp (List.mem_of_getElem? hfirst)
    exact .done

lemma parents_addNode (hw : ∀ id, p.parents id = p.inputs id) (hfits : (p.addNode node name).1.Fits)
    (id : NodeId) : (p.addNode node name).1.parents id = (p.addNode node name).1.inputs id := by
  have hedges := hfits.2
  rw [(wired_lengths h hin name).2.1, ← h.column_length] at hedges
  rcases lt_trichotomy id.index p.count with hid | hid | hid
  · rw [parents_addNode_old h node name hid, inputs_addNode_old node name hid, hw]
  · have hstart : (UInt32.ofNat p.parentColumn.length).toNat = p.parentColumn.length := by
      simpa using (show p.parentColumn.length < 4294967296 by omega)
    have hsize : (UInt32.ofNat node.inputs.length).toNat = node.inputs.length := by
      simpa using (show node.inputs.length < 4294967296 by omega)
    rw [parents_addNode_new h node name hid, inputs_addNode_new node name hid, hstart, hsize,
      List.drop_left, List.take_length]
  · rw [parents_eq_nil (by simpa [h.spans_length] using hid), inputs_eq_nil (by simpa using hid)]

lemma Wired.addNode (hw : p.Wired) (hfits : (p.addNode node name).1.Fits) :
    (p.addNode node name).1.Wired :=
  ⟨parents_addNode h hin hw.parents_eq hfits, lists_addNode h hin hw.lists hfits⟩

end AddNode

lemma Step.fits {answer : Answer} (hs : Step p q answer) (h : p.Consistent) (hfits : q.Fits) :
    p.Fits := by
  cases hs with
  | refused error => exact hfits
  | added node name hin =>
    obtain ⟨hcount, hedges⟩ := hfits
    rw [count_addNode] at hcount
    rw [(wired_lengths h hin name).2.1] at hedges
    exact ⟨by omega, by omega⟩
  | replaced id old new hid => exact ⟨count_withSource p id new ▸ hfits.1, hfits.2⟩

lemma Step.wired {answer : Answer} (hs : Step p q answer) (h : p.Consistent) (hw : p.Wired)
    (hfits : q.Fits) : q.Wired := by
  cases hs with
  | refused error => exact hw
  | added node name hin => exact hw.addNode h hin hfits
  | replaced id old new hid => exact hw.withSource hid new

lemma run_fits (h : p.Consistent) (calls : List Call) (hfits : (p.run calls).1.Fits) : p.Fits := by
  induction calls generalizing p with
  | nil => exact hfits
  | cons call calls ih =>
    have hstep := perform_step p call
    exact hstep.fits h (ih (hstep.consistent h) hfits)

lemma run_wired (h : p.Consistent) (hw : p.Wired) (calls : List Call)
    (hfits : (p.run calls).1.Fits) : (p.run calls).1.Wired := by
  induction calls generalizing p with
  | nil => exact hw
  | cons call calls ih =>
    have hstep := perform_step p call
    have hnext := hstep.consistent h
    exact ih hnext (hstep.wired h hw (run_fits hnext calls hfits)) hfits

lemma built_wired (calls : List Call) (hfits : (built calls).Fits) : (built calls).Wired :=
  run_wired consistent_empty wired_empty calls hfits

lemma Wired.edgeList (h : p.Consistent) (hw : p.Wired) (hid : p.contains id = true) :
    ∃ edge, p.firstEdges[id.index]? = some edge ∧ p.EdgeList edge (p.consumers id) := by
  rw [contains_iff, ← h.firstEdges_length] at hid
  exact ⟨_, List.getElem?_eq_getElem hid, hw.lists id _ (List.getElem?_eq_getElem hid)⟩

lemma Wired.children_eq (h : p.Consistent) (hw : p.Wired) (hid : p.contains id = true) :
    p.children id = p.consumers id := by
  obtain ⟨edge, hfirst, hlist⟩ := hw.edgeList h hid
  exact hlist.children_eq hfirst

lemma Consistent.find?_name (h : p.Consistent) (hname : p.name? id = some name) :
    p.find? name = some id := by
  obtain ⟨hlt, heq⟩ := List.getElem?_eq_some_iff.mp hname
  have hidx : p.names.idxOf? name = some id.index := by
    refine List.idxOf?_eq_some_iff.mpr ⟨hlt, heq, ?_⟩
    intro j hj hsame
    have hinj := (h.names_nodup.getElem_inj_iff).mp (hsame.trans heq.symm)
    omega
  rw [find?, hidx, Option.map_some, NodeId.ofNat_index]

structure WellFormed (p : Plan) : Prop where
  names_length : p.names.length = p.nodes.length
  spans_length : p.parentSpans.length = p.nodes.length
  firstEdges_length : p.firstEdges.length = p.nodes.length
  nextEdges_length : p.nextEdges.length = p.edgeTargets.length
  parents_eq : ∀ id node, p.node? id = some node → p.parents id = node.inputs
  parents_lt : ∀ id, ∀ m ∈ p.parents id, m.index < id.index
  children_end : ∀ id, p.contains id = true →
    ∃ edge, p.firstEdges[id.index]? = some edge ∧ p.EdgeList edge (p.children id)
  children_sorted : ∀ id, p.contains id = true →
    (p.children id).Pairwise fun a b => b.index ≤ a.index
  children_count : ∀ id, p.contains id = true →
    ∀ c, (p.children id).count c = (p.inputs c).count id
  names_nodup : p.names.Nodup
  usedNames_iff : ∀ name, name ∈ p.usedNames ↔ name ∈ p.names
  find?_name : ∀ id, p.contains id = true →
    ∃ name, p.name? id = some name ∧ p.find? name = some id

/-- However a plan is built, the upward and the downward view of its graph and its names agree, and
a refused call changes nothing. -/
theorem built_wellFormed (calls : List Call) (hfits : (built calls).Fits) :
    (built calls).WellFormed ∧ ∀ call error, ((built calls).perform call).2 = .refused error →
      ((built calls).perform call).1 = built calls := by
  have h := built_consistent calls
  have hw := built_wired calls hfits
  refine ⟨?_, ?_⟩
  · exact
      { names_length := h.names_length
        spans_length := h.spans_length
        firstEdges_length := h.firstEdges_length
        nextEdges_length := h.nextEdges_length
        parents_eq := fun id node hnode => (hw.parents_eq id).trans (inputs_of_node hnode)
        parents_lt := h.parents_lt
        children_end := fun id hid => by
          rw [hw.children_eq h hid]
          exact hw.edgeList h hid
        children_sorted := fun id hid => by
          rw [hw.children_eq h hid]
          exact consumers_sorted hfits.1 id
        children_count := fun id hid c => by
          rw [hw.children_eq h hid, count_consumers hfits.1]
        names_nodup := h.names_nodup
        usedNames_iff := fun name => by rw [h.usedNames_eq]
        find?_name := fun id hid => by
          rw [contains_iff, ← h.names_length] at hid
          have hname := List.getElem?_eq_getElem hid
          exact ⟨_, hname, h.find?_name hname⟩ }
  · intro call error herror
    exact (herror ▸ perform_step (built calls) call).unchanged

def grid (upper : Float) : Schema :=
  (Schema.new "grid").pushAll [.dim (.implicit "x" .int 0 upper 1), .attr ⟨"v", .float⟩]

def survey : List Call :=
  [.addSource "grid" (grid 3),
   .addOperator "grid" .scan [⟨"inputTar", .input ⟨0⟩⟩],
   .addOperator "pairs" .cross [⟨"left", .input ⟨1⟩⟩, ⟨"right", .input ⟨1⟩⟩],
   .addOperator "late" .filter [⟨"inputTar", .input ⟨7⟩⟩],
   .replaceSource ⟨0⟩ (grid 7)]

theorem survey_wellFormed : (built survey).Fits ∧ (built survey).names = ["grid", "grid_1", "pairs"] ∧
    (built survey).children ⟨1⟩ = [⟨2⟩, ⟨2⟩] ∧ (built survey).WellFormed ∧
    ((built survey).perform (.replaceSource ⟨1⟩ (grid 3))).1 = built survey := by
  have hfits : (built survey).Fits := by decide
  have hwell := built_wellFormed survey hfits
  have hrefused : ((built survey).perform (.replaceSource ⟨1⟩ (grid 3))).2 =
      .refused (.notASource ⟨1⟩) := by decide
  exact ⟨hfits, by decide, by decide +kernel, hwell.1, hwell.2 _ _ hrefused⟩

end TensorSchema.Plan
