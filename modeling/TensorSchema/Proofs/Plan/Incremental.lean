import Mathlib
import TensorSchema.Proofs.Plan.Derivation
import TensorSchema.Proofs.Plan.Downstream

/-! Inference from a previous result. A call leaves the schemas of all nodes that it does not report as
stale, so what is retained of an earlier result still holds, and inference from it ends as inference from
the sources does. -/

namespace TensorSchema.Plan

variable {engine : Engine} {p q : Plan} {answer : Answer} {id m : NodeId} {schema : Schema}
  {previous : InferredPlan} {stale : List NodeId}

lemma Step.node?_eq (hstep : Step p q answer) (hid : p.contains id = true)
    (hfresh : id ∉ answer.staleNodes) : q.node? id = p.node? id := by
  cases hstep with
  | refused error => rfl
  | added node name hin => exact node?_addNode_old name node hid
  | replaced source old new hsource =>
    apply node?_withSource_ne
    rintro rfl
    apply hfresh
    apply start_mem_downstream
    · rw [contains_iff, count_withSource]
      exact contains_iff.mp hid
    · exact List.mem_singleton_self id

lemma Step.name?_eq (h : p.Consistent) (hstep : Step p q answer) (hid : p.contains id = true) :
    q.name? id = p.name? id := by
  cases hstep with
  | refused error => rfl
  | added node name hin =>
    rw [contains_iff, ← h.names_length] at hid
    exact List.getElem?_append_left hid
  | replaced source old new hsource => rfl

lemma Step.input_fresh (hq : q.Consistent) (hw : q.Wired) (hstep : Step p q answer)
    (hfresh : id ∉ answer.staleNodes) (hm : m ∈ p.inputs id) : m ∉ answer.staleNodes := by
  cases hstep with
  | refused error => exact List.not_mem_nil
  | added node name hin => exact List.not_mem_nil
  | replaced source old new hsource =>
    intro hstale
    apply hfresh
    rw [← inputs_withSource new hsource] at hm
    exact hw.consumer_mem_downstream hq hstale hm

lemma Derives.step (h : p.Consistent) (hw : q.Wired) (hstep : Step p q answer)
    (hderives : Derives engine p id schema) (hfresh : id ∉ answer.staleNodes) :
    Derives engine q id schema := by
  induction hderives with
  | intro schemaOf hnode hname _ hrule ih =>
    have hid := contains_of_node hnode
    refine .intro schemaOf ((hstep.node?_eq hid hfresh).trans hnode)
      ((hstep.name?_eq h hid).trans hname) ?_ hrule
    intro m hm
    rw [← inputs_of_node hnode] at hm
    exact ih m (inputs_of_node hnode ▸ hm) (hstep.input_fresh (hstep.consistent h) hw hfresh hm)

lemma Derives.run (h : p.Consistent) (hw : p.Wired) (calls : List Call)
    (hfits : (p.run calls).1.Fits) (hderives : Derives engine p id schema)
    (hfresh : ∀ answer ∈ (p.run calls).2, id ∉ answer.staleNodes) :
    Derives engine (p.run calls).1 id schema := by
  induction calls generalizing p with
  | nil => exact hderives
  | cons call calls ih =>
    have hstep := perform_step p call
    have hnext := hstep.consistent h
    have hwired := hstep.wired h hw (run_fits hnext calls hfits)
    refine ih hnext hwired hfits ?_ ?_
    · exact hderives.step h hwired hstep (hfresh _ List.mem_cons_self)
    · intro answer hanswer
      exact hfresh answer (List.mem_cons_of_mem _ hanswer)

lemma length_retained (p : Plan) (previous : InferredPlan) (stale : List NodeId) :
    (p.retained previous stale).schemas.length = p.count := by
  simp [retained, ids]

lemma get?_retained (hget : (p.retained previous stale).get? id = some schema) :
    id ∉ stale ∧ previous.get? id = some schema := by
  have hid := InferredPlan.index_lt_of_get? hget
  rw [length_retained] at hid
  simp only [retained, InferredPlan.get?, ids, List.getElem?_map, List.getElem?_range hid,
    Option.map_some, NodeId.ofNat_index, Option.join_some] at hget
  split at hget
  next hstale => cases hget
  next hfresh => exact ⟨hfresh, hget⟩

lemma Sound.retained (h : p.Consistent) (hw : p.Wired) (calls : List Call)
    (hfits : (p.run calls).1.Fits) (hsound : Sound engine p previous)
    (hstale : ∀ answer ∈ (p.run calls).2, answer.staleNodes ⊆ stale) :
    Sound engine (p.run calls).1 ((p.run calls).1.retained previous stale) := by
  intro id schema hget
  obtain ⟨hfresh, hschema⟩ := get?_retained hget
  apply (hsound id schema hschema).run h hw calls hfits
  intro answer hanswer hid
  exact hfresh (hstale answer hanswer hid)

theorem inferAgain_eq_infer (engine : Engine) (before after : List Call) (previous : InferredPlan)
    (stale : List NodeId) (hprevious : ((built before).infer engine).outcome = .ok previous)
    (hstale : ∀ answer ∈ ((built before).run after).2, answer.staleNodes ⊆ stale)
    (hfits : ((built before).run after).1.Fits) :
    (((built before).run after).1.inferAgain engine previous stale).outcome =
      (((built before).run after).1.infer engine).outcome := by
  have h := built_consistent before
  have hbefore := run_fits h after hfits
  have hnow := run_consistent h after
  have hsettles := infer_settles engine h hbefore.1
  rw [hprevious] at hsettles
  have hretained :=
    hsettles.sound.retained h (built_wired before hbefore) after hfits hstale
  exact (inferFrom_settles hnow hfits.1 (length_retained _ _ _) hretained).unique hfits.1
    (infer_settles engine hnow hfits.1)

def resurvey : List Call :=
  [.addOperator "all" .cross [⟨"left", .input ⟨2⟩⟩, ⟨"right", .input ⟨3⟩⟩],
   .replaceSource ⟨3⟩ (grid 5),
   .replaceSource ⟨2⟩ (grid 5)]

theorem resurvey_inferAgain : ((built widened).run resurvey).2 =
      [.added ⟨4⟩, .stale [⟨3⟩, ⟨4⟩], .refused (.notASource ⟨2⟩)] ∧
    ∃ previous, ((built widened).infer ({} : Config)).outcome = .ok previous ∧
      (((built widened).run resurvey).1.inferAgain ({} : Config) previous [⟨3⟩, ⟨4⟩]).outcome =
        (((built widened).run resurvey).1.infer ({} : Config)).outcome := by
  have hanswers : ((built widened).run resurvey).2 =
      [.added ⟨4⟩, .stale [⟨3⟩, ⟨4⟩], .refused (.notASource ⟨2⟩)] := by decide +kernel
  refine ⟨hanswers, ?_⟩
  cases hprevious : ((built widened).infer ({} : Config)).outcome with
  | error error =>
    have hok : ((built widened).infer ({} : Config)).outcome.isOk = true := by decide +kernel
    rw [hprevious] at hok
    cases hok
  | ok previous =>
    refine ⟨previous, rfl, inferAgain_eq_infer _ widened resurvey previous _ hprevious ?_ ?_⟩
    · rw [hanswers]
      decide
    · decide +kernel

end TensorSchema.Plan
