import Mathlib
import TensorSchema.Proofs.Plan.Wiring

namespace TensorSchema.Plan

open Relation (ReflTransGen)
open StateTransition

variable {p : Plan} {id m : NodeId}

lemma pending_mem_gather {next : NodeId → List NodeId} {remaining pending : List NodeId}
    (hpending : m ∈ pending) (hm : m ∈ remaining) : m ∈ gather next remaining pending := by
  fun_induction gather next remaining pending with
  | case1 remaining pending hnone =>
    have hout := List.find?_eq_none.mp hnone m hpending
    exact (hout (by simpa using hm)).elim
  | case2 remaining pending node hnode ih =>
    by_cases hne : m = node
    · exact hne ▸ List.mem_cons_self
    · exact List.mem_cons_of_mem _
        (ih (List.mem_append_left _ hpending) ((List.mem_erase_of_ne hne).mpr hm))

lemma next_mem_gather {next : NodeId → List NodeId} {remaining pending : List NodeId}
    (hm : m ∈ gather next remaining pending) (hnext : id ∈ next m) (hid : id ∈ remaining) :
    id ∈ gather next remaining pending := by
  fun_induction gather next remaining pending with
  | case1 remaining pending hnone => cases hm
  | case2 remaining pending node hnode ih =>
    by_cases hne : id = node
    · exact hne ▸ List.mem_cons_self
    have herase : id ∈ remaining.erase node := (List.mem_erase_of_ne hne).mpr hid
    refine List.mem_cons_of_mem _ ?_
    rcases List.mem_cons.mp hm with rfl | hm
    · exact pending_mem_gather (List.mem_append_right _ hnext) herase
    · exact ih hm herase

lemma mem_downstream {start : List NodeId} :
    id ∈ p.downstream start ↔ p.contains id = true ∧ id ∈ gather p.children p.ids start := by
  simp [downstream]

lemma start_mem_downstream {start : List NodeId} (hid : p.contains id = true) (h : id ∈ start) :
    id ∈ p.downstream start :=
  mem_downstream.mpr ⟨hid, pending_mem_gather h (mem_ids.mpr hid)⟩

lemma Wired.consumer_mem_downstream {start : List NodeId} (h : p.Consistent) (hw : p.Wired)
    (hm : m ∈ p.downstream start) (hinput : m ∈ p.inputs id) : id ∈ p.downstream start := by
  obtain ⟨hcontains, hgather⟩ := mem_downstream.mp hm
  have hconsumer : id ∈ p.consumers m := mem_consumers.mpr hinput
  have hid := contains_of_input hinput
  rw [← hw.children_eq h hcontains] at hconsumer
  exact mem_downstream.mpr ⟨hid, next_mem_gather hgather hconsumer (mem_ids.mpr hid)⟩

lemma gather_reached {next : NodeId → List NodeId} {remaining pending : List NodeId}
    (hm : m ∈ gather next remaining pending) :
    ∃ s ∈ pending, ReflTransGen (fun a b => b ∈ next a) s m := by
  fun_induction gather next remaining pending with
  | case1 => cases hm
  | case2 remaining pending node hnode ih =>
    have hpending : node ∈ pending := List.mem_of_find?_eq_some hnode
    rcases List.mem_cons.mp hm with rfl | hm
    · exact ⟨m, hpending, .refl⟩
    · obtain ⟨s, hs, hreach⟩ := ih hm
      rcases List.mem_append.mp hs with hs | hs
      · exact ⟨s, hs, hreach⟩
      · exact ⟨node, hpending, .head hs hreach⟩

section Queue

structure QueueState where
  queue : List NodeId
  visited : List NodeId

def QueueState.round (next : NodeId → List NodeId) (s : QueueState) : Option QueueState :=
  match s.queue with
  | [] => none
  | node :: queue =>
    if node ∈ s.visited then some ⟨queue, s.visited⟩
    else some ⟨queue ++ next node, node :: s.visited⟩

/-- What the loop has found so far: nothing but what can be reached, and all of it but for what follows the
queue. -/
structure Explores (next : NodeId → List NodeId) (start : List NodeId) (s : QueueState) : Prop where
  reached : ∀ m, m ∈ s.queue ∨ m ∈ s.visited → ∃ a ∈ start, ReflTransGen (fun a b => b ∈ next a) a m
  starts : ∀ m ∈ start, m ∈ s.queue ∨ m ∈ s.visited
  closed : ∀ m ∈ s.visited, ∀ b ∈ next m, b ∈ s.queue ∨ b ∈ s.visited

variable {next : NodeId → List NodeId} {start queue visited : List NodeId} {node : NodeId} {s t : QueueState}

lemma round_visited (h : node ∈ visited) :
    QueueState.round next ⟨node :: queue, visited⟩ = some ⟨queue, visited⟩ := if_pos h

lemma round_new (h : node ∉ visited) :
    QueueState.round next ⟨node :: queue, visited⟩ = some ⟨queue ++ next node, node :: visited⟩ := if_neg h

lemma Explores.round (h : Explores next start s) (hround : t ∈ s.round next) : Explores next start t := by
  obtain ⟨queue, visited⟩ := s
  obtain ⟨hreached, hstarts, hclosed⟩ := h
  cases queue with
  | nil => cases hround
  | cons node queue =>
    by_cases hvisited : node ∈ visited
    · rw [round_visited hvisited] at hround
      obtain rfl := Option.some.inj hround
      have hkept : ∀ m, m ∈ node :: queue ∨ m ∈ visited → m ∈ queue ∨ m ∈ visited := by
        intro m hm
        rw [List.mem_cons] at hm
        grind
      exact {
        reached := fun m hm => hreached m (hm.imp_left (List.mem_cons_of_mem _))
        starts := fun m hm => hkept m (hstarts m hm)
        closed := fun m hm b hb => hkept b (hclosed m hm b hb) }
    · rw [round_new hvisited] at hround
      obtain rfl := Option.some.inj hround
      have hkept : ∀ m, m ∈ node :: queue ∨ m ∈ visited →
          m ∈ queue ++ next node ∨ m ∈ node :: visited := by
        intro m hm
        rw [List.mem_cons] at hm
        rw [List.mem_append, List.mem_cons]
        grind
      obtain ⟨a, ha, hreach⟩ := hreached node (Or.inl List.mem_cons_self)
      constructor
      · intro m hm
        rw [List.mem_append, List.mem_cons] at hm
        rcases hm with (hqueue | hnext) | rfl | hm
        · exact hreached m (Or.inl (List.mem_cons_of_mem _ hqueue))
        · exact ⟨a, ha, hreach.tail hnext⟩
        · exact ⟨a, ha, hreach⟩
        · exact hreached m (Or.inr hm)
      · exact fun m hm => hkept m (hstarts m hm)
      · intro m hm b hb
        rcases List.mem_cons.mp hm with rfl | hm
        · exact Or.inl (List.mem_append_right _ hb)
        · exact hkept b (hclosed m hm b hb)

lemma Explores.run (h : Explores next start s) (hrun : Reaches (QueueState.round next) s t) :
    Explores next start t := by
  induction hrun with
  | refl => exact h
  | tail _ hround ih => exact ih.round hround

lemma Explores.mem_visited (h : Explores next start ⟨[], visited⟩) :
    m ∈ visited ↔ ∃ a ∈ start, ReflTransGen (fun a b => b ∈ next a) a m := by
  constructor
  · exact fun hm => h.reached m (Or.inr hm)
  · rintro ⟨a, ha, hreach⟩
    induction hreach with
    | refl => simpa using h.starts a ha
    | tail _ hnext ih => simpa using h.closed _ ih _ hnext

def unvisited (visited : List NodeId) : Finset ℕ :=
  (Finset.range (2 ^ 32)).filter fun i => NodeId.ofNat i ∉ visited

lemma card_unvisited (h : node ∉ visited) : (unvisited (node :: visited)).card < (unvisited visited).card := by
  apply Finset.card_lt_card
  refine Finset.ssubset_iff_of_subset ?_ |>.mpr ⟨node.index, ?_, ?_⟩
  · intro i hi
    simp only [unvisited, Finset.mem_filter, List.mem_cons, not_or] at hi ⊢
    exact ⟨hi.1, hi.2.2⟩
  · simpa [unvisited, NodeId.ofNat_index] using ⟨node.raw.toNat_lt, h⟩
  · simp [unvisited, NodeId.ofNat_index]

/-- A round either visits one node more or shortens the queue. -/
lemma reaches_end (next : NodeId → List NodeId) (queue visited : List NodeId) :
    ∃ all, Reaches (QueueState.round next) ⟨queue, visited⟩ ⟨[], all⟩ := by
  induction hcard : (unvisited visited).card using Nat.strong_induction_on generalizing queue visited with
  | _ n ih =>
    induction queue with
    | nil => exact ⟨visited, .refl⟩
    | cons node queue ihqueue =>
      by_cases hvisited : node ∈ visited
      · obtain ⟨all, hall⟩ := ihqueue
        exact ⟨all, .head (round_visited hvisited) hall⟩
      · obtain ⟨all, hall⟩ := ih _ (hcard ▸ card_unvisited hvisited) (queue ++ next node) (node :: visited) rfl
        exact ⟨all, .head (round_new hvisited) hall⟩

lemma eval_queue (next : NodeId → List NodeId) (start : List NodeId) :
    ∃ visited, eval (QueueState.round next) ⟨start, []⟩ = Part.some ⟨[], visited⟩ ∧
      ∀ m, m ∈ visited ↔ ∃ a ∈ start, ReflTransGen (fun a b => b ∈ next a) a m := by
  obtain ⟨visited, hreaches⟩ := reaches_end next start []
  have hstart : Explores next start ⟨start, []⟩ :=
    ⟨fun m hm => ⟨m, by simpa using hm, .refl⟩, fun _ => Or.inl, by simp⟩
  exact ⟨visited, Part.eq_some_iff.mpr (mem_eval.mpr ⟨hreaches, rfl⟩), fun m => (hstart.run hreaches).mem_visited⟩

end Queue

def Sweeps (p : Plan) (start nodes : List NodeId) : Prop :=
  ∃ visited, eval (QueueState.round p.children) ⟨start, []⟩ = Part.some ⟨[], visited⟩ ∧
    ∀ id, id ∈ visited ↔ id ∈ nodes

def Feeds (p : Plan) (m id : NodeId) : Prop :=
  ∃ edge targets, p.firstEdges[m.index]? = some edge ∧ p.EdgeList edge targets ∧ id ∈ targets

def ListsEnd (p : Plan) : Prop := ∀ id, p.contains id = true →
  ∃ edge targets, p.firstEdges[id.index]? = some edge ∧ p.EdgeList edge targets

lemma EdgeList.subset {edge : UInt32} {targets : List NodeId} (h : p.EdgeList edge targets) :
    targets ⊆ p.edgeTargets := by
  induction h with
  | done => exact List.nil_subset _
  | cons _ htarget _ _ ih => exact List.cons_subset.mpr ⟨List.mem_of_getElem? htarget, ih⟩

section ListsEnd

variable {start : List NodeId} (hends : p.ListsEnd)
include hends

lemma ListsEnd.mem_children (hm : p.contains m = true) : id ∈ p.children m ↔ p.Feeds m id := by
  obtain ⟨edge, targets, hfirst, hlist⟩ := hends m hm
  rw [hlist.children_eq hfirst]
  constructor
  · intro hid
    exact ⟨edge, targets, hfirst, hlist, hid⟩
  · rintro ⟨edge', targets', hfirst', hlist', hid⟩
    obtain rfl := Option.some.inj (hfirst.symm.trans hfirst')
    rwa [hlist.unique hlist']

variable (hfeeds : ∀ m id, p.Feeds m id → p.contains id = true)
include hfeeds

lemma ListsEnd.feeds_of_children {s : NodeId} (hs : p.contains s = true)
    (h : ReflTransGen (fun a b => b ∈ p.children a) s id) :
    p.contains id = true ∧ ReflTransGen p.Feeds s id := by
  induction h with
  | refl => exact ⟨hs, .refl⟩
  | tail _ hstep ih =>
    obtain ⟨hmid, hreach⟩ := ih
    have hedge := (hends.mem_children hmid).mp hstep
    exact ⟨hfeeds _ _ hedge, hreach.tail hedge⟩

lemma ListsEnd.downstream_of_feeds {s : NodeId} (hs : p.contains s = true) (hstart : s ∈ start)
    (h : ReflTransGen p.Feeds s id) : id ∈ p.downstream start := by
  induction h with
  | refl => exact start_mem_downstream hs hstart
  | tail _ hstep ih =>
    obtain ⟨hmid, hgather⟩ := mem_downstream.mp ih
    have hid := hfeeds _ _ hstep
    refine mem_downstream.mpr ⟨hid, ?_⟩
    exact next_mem_gather hgather ((hends.mem_children hmid).mpr hstep) (mem_ids.mpr hid)

lemma ListsEnd.mem_downstream_iff (hstart : ∀ s ∈ start, p.contains s = true) :
    id ∈ p.downstream start ↔ ∃ s ∈ start, ReflTransGen p.Feeds s id := by
  constructor
  · intro hid
    obtain ⟨s, hs, hreach⟩ := gather_reached (mem_downstream.mp hid).2
    exact ⟨s, hs, (hends.feeds_of_children hfeeds (hstart s hs) hreach).2⟩
  · rintro ⟨s, hs, hreach⟩
    exact hends.downstream_of_feeds hfeeds (hstart s hs) hs hreach

lemma ListsEnd.sweeps (hstart : ∀ s ∈ start, p.contains s = true) :
    p.Sweeps start (p.downstream start) := by
  obtain ⟨visited, hends', hvisited⟩ := eval_queue p.children start
  refine ⟨visited, hends', fun id => ?_⟩
  rw [hvisited]
  constructor
  · rintro ⟨s, hs, hreach⟩
    exact hends.downstream_of_feeds hfeeds (hstart s hs) hs
      (hends.feeds_of_children hfeeds (hstart s hs) hreach).2
  · exact fun hid => gather_reached (mem_downstream.mp hid).2

end ListsEnd

section Wired

variable (h : p.Consistent) (hw : p.Wired)
include h hw

lemma Wired.listsEnd : p.ListsEnd := by
  intro id hid
  obtain ⟨edge, hfirst, hlist⟩ := hw.edgeList h hid
  exact ⟨edge, _, hfirst, hlist⟩

lemma Wired.feeds_iff : p.Feeds m id ↔ m ∈ p.inputs id := by
  constructor
  · rintro ⟨edge, targets, hfirst, hlist, hid⟩
    rw [hlist.unique (hw.lists m edge hfirst)] at hid
    exact mem_consumers.mp hid
  · intro hm
    have hlt := h.inputs_lt id m hm
    have hid := contains_iff.mp (contains_of_input hm)
    obtain ⟨edge, hfirst, hlist⟩ := hw.edgeList h (contains_iff.mpr (hlt.trans hid))
    exact ⟨edge, _, hfirst, hlist, mem_consumers.mpr hm⟩

lemma Wired.contains_of_feeds (hid : p.Feeds m id) : p.contains id = true :=
  contains_of_input ((hw.feeds_iff h).mp hid)

lemma Wired.mem_downstream_iff (hm : p.contains m = true) :
    id ∈ p.downstream [m] ↔ ReflTransGen (fun a b => a ∈ p.inputs b) m id := by
  have hfeeds : ∀ a b, p.Feeds a b → p.contains b = true := fun _ _ => hw.contains_of_feeds h
  have hrel : p.Feeds = fun a b => a ∈ p.inputs b := by
    funext a b
    exact propext (hw.feeds_iff h)
  rw [(hw.listsEnd h).mem_downstream_iff hfeeds (List.forall_mem_singleton.mpr hm), hrel]
  simp

end Wired

/-- The search along edges ends and finds the nodes that can be reached from the start nodes, and no
others, whatever the edges are. In a plan that is built by calls, replacing a source makes exactly the
source and the nodes stale that read it, directly or through other nodes. -/
theorem downstream_exact :
    (∀ (p : Plan) (start : List NodeId), p.ListsEnd → (∀ id ∈ p.edgeTargets, p.contains id = true) →
      (∀ id ∈ start, p.contains id = true) →
      p.Sweeps start (p.downstream start) ∧
      ∀ id, id ∈ p.downstream start ↔ ∃ s ∈ start, ReflTransGen p.Feeds s id) ∧
    ∀ (calls : List Call) (id : NodeId) (old new : Schema), (built calls).Fits →
      (built calls).node? id = some (.source old) →
      ∃ q stale, (built calls).replaceSource id new = (q, .ok stale) ∧ q.Sweeps [id] stale ∧
        ∀ m, m ∈ stale ↔ ReflTransGen (fun a b => a ∈ (built calls).inputs b) id m := by
  constructor
  · intro p start hends htargets hstart
    have hfeeds : ∀ m id, p.Feeds m id → p.contains id = true := by
      rintro m target ⟨edge, targets, _, hlist, htarget⟩
      exact htargets target (hlist.subset htarget)
    exact ⟨hends.sweeps hfeeds hstart, fun id => hends.mem_downstream_iff hfeeds hstart⟩
  · intro calls id old new hfits hnode
    have h := consistent_withSource (built_consistent calls) hnode new
    have hw := (built_wired calls hfits).withSource hnode new
    have hid := contains_of_node (node?_withSource_self new hnode)
    refine ⟨(built calls).withSource id new, ((built calls).withSource id new).downstream [id],
      by simp only [replaceSource, hnode], ?_, ?_⟩
    · exact (hw.listsEnd h).sweeps (fun _ _ => hw.contains_of_feeds h) (List.forall_mem_singleton.mpr hid)
    intro m
    rw [hw.mem_downstream_iff h hid]
    simp only [inputs_withSource new hnode]

def ring : Plan where
  nodes := [.source (grid 1), .source (grid 1), .source (grid 1)]
  firstEdges := [0, 1, 2]
  edgeTargets := [⟨1⟩, ⟨2⟩, ⟨1⟩]
  nextEdges := [noEdge, noEdge, noEdge]

def widened : List Call := survey ++ [.addSource "edge" (grid 1)]

theorem ring_downstream :
    (∃ s ∈ [⟨1⟩, ⟨1⟩], ReflTransGen ring.Feeds s ⟨2⟩) ∧
    (¬ ∃ s ∈ [⟨1⟩, ⟨1⟩], ReflTransGen ring.Feeds s ⟨0⟩) ∧
    ReflTransGen (fun a b => a ∈ (built widened).inputs b) ⟨0⟩ ⟨2⟩ ∧
    ¬ ReflTransGen (fun a b => a ∈ (built widened).inputs b) ⟨0⟩ ⟨3⟩ := by
  have hends : ring.ListsEnd := by
    intro id hid
    have hlt : id.index < 3 := contains_iff.mp hid
    obtain hid | hid | hid : id.index = 0 ∨ id.index = 1 ∨ id.index = 2 := by omega
    · exact ⟨0, [⟨1⟩], by rw [hid]; rfl, .cons (by decide) rfl rfl .done⟩
    · exact ⟨1, [⟨2⟩], by rw [hid]; rfl, .cons (by decide) rfl rfl .done⟩
    · exact ⟨2, [⟨1⟩], by rw [hid]; rfl, .cons (by decide) rfl rfl .done⟩
  have hring := (downstream_exact.1 ring [⟨1⟩, ⟨1⟩] hends (by decide) (by decide)).2
  rw [show ring.downstream [⟨1⟩, ⟨1⟩] = [⟨1⟩, ⟨2⟩] by decide +kernel] at hring
  have hnode : (built widened).node? ⟨0⟩ = some (.source (grid 7)) := by decide +kernel
  obtain ⟨q, stale, hreplace, -, hstale⟩ :=
    downstream_exact.2 widened ⟨0⟩ (grid 7) (grid 1) (by decide +kernel) hnode
  have hanswer : ((built widened).replaceSource ⟨0⟩ (grid 1)).2.toOption = some [⟨0⟩, ⟨1⟩, ⟨2⟩] := by
    decide +kernel
  rw [hreplace] at hanswer
  obtain rfl : stale = [⟨0⟩, ⟨1⟩, ⟨2⟩] := Option.some.inj hanswer
  refine ⟨(hring ⟨2⟩).mp (by decide), fun hreach => ?_, (hstale ⟨2⟩).mp (by decide), fun hreach => ?_⟩
  · exact absurd ((hring ⟨0⟩).mpr hreach) (by decide)
  · exact absurd ((hstale ⟨3⟩).mpr hreach) (by decide)

end TensorSchema.Plan
