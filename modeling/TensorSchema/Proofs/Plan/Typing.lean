import Mathlib
import TensorSchema.Proofs.Plan.NodeRule
import TensorSchema.Proofs.Plan.Order

/-! Inference that succeeds gives every node the schema that its rule computes from the final schemas of its
inputs, whatever the order of the walk. -/

namespace TensorSchema

namespace InferredPlan

variable {r : InferredPlan} {id other : NodeId} {schema : Schema}

lemma get?_set_self (h : id.index < r.schemas.length) : (r.set id schema).get? id = some schema := by
  simp [get?, set, h]

lemma get?_set_ne (h : other ≠ id) : (r.set id schema).get? other = r.get? other := by
  have hi : id.index ≠ other.index := fun he => h (NodeId.index_injective he.symm)
  simp [get?, set, List.getElem?_set_ne hi]

@[simp] lemma length_set (r : InferredPlan) (id : NodeId) (schema : Schema) :
    (r.set id schema).schemas.length = r.schemas.length := by
  simp [set]

lemma index_lt_of_get? (h : r.get? id = some schema) : id.index < r.schemas.length := by
  by_contra hge
  simp [get?, List.getElem?_eq_none (not_lt.mp hge)] at h

lemma get?_set_cases {new : Schema} (h : (r.set id new).get? other = some schema) :
    other = id ∧ new = schema ∨ r.get? other = some schema := by
  by_cases ho : other = id
  · subst ho
    have hlt := index_lt_of_get? h
    rw [length_set] at hlt
    rw [get?_set_self hlt] at h
    exact Or.inl ⟨rfl, Option.some.inj h⟩
  · rw [get?_set_ne ho] at h
    exact Or.inr h

lemma eq_of_get? {s : InferredPlan} {n : ℕ} (hn : n ≤ 2 ^ 32) (hr : r.schemas.length = n)
    (hs : s.schemas.length = n)
    (h : ∀ id : NodeId, id.index < n → ∃ schema, r.get? id = some schema ∧ s.get? id = some schema) :
    r = s := by
  obtain ⟨rs⟩ := r
  obtain ⟨ss⟩ := s
  dsimp only at hr hs
  congr 1
  apply List.ext_getElem (hr.trans hs.symm)
  intro i hri hsi
  have hi : (NodeId.ofNat i).index = i := NodeId.index_ofNat (by omega)
  obtain ⟨schema, hrget, hsget⟩ := h (.ofNat i) (by omega)
  simp only [get?, hi, List.getElem?_eq_getElem hri, List.getElem?_eq_getElem hsi,
    Option.join_some] at hrget hsget
  rw [hrget, hsget]

end InferredPlan

namespace Plan

variable {engine : Engine} {p : Plan} {known r : InferredPlan} {id : NodeId} {order rest : List NodeId}

@[simp] lemma get?_unknown (p : Plan) (id : NodeId) : p.unknown.get? id = none := by
  simp only [unknown, InferredPlan.get?, List.getElem?_replicate]
  split <;> rfl

@[simp] lemma length_unknown (p : Plan) : p.unknown.schemas.length = p.count := by
  simp [unknown]

lemma inferAlong_skip (h : p.node? id = none ∨ ∃ schema, known.get? id = some schema) :
    inferAlong engine p known (id :: rest) = inferAlong engine p known rest := by
  rcases h with h | ⟨schema, h⟩
  · rw [inferAlong, h]
    split <;> simp_all
  · rw [inferAlong, h]

lemma inferAlong_cons {node : Node} (hknown : known.get? id = none) (hnode : p.node? id = some node) :
    (inferAlong engine p known (id :: rest)).outcome =
      (inferNode engine known id ((p.name? id).getD "") node).outcome >>= fun schema =>
        (inferAlong engine p (known.set id schema) rest).outcome := by
  simp only [inferAlong, hknown, hnode, Traced.outcome_bind]
  rfl

lemma inferAlong_cons_ok (h : (inferAlong engine p known (id :: rest)).outcome = .ok r) :
    (p.node? id = none ∨ ∃ schema, known.get? id = some schema) ∧
        (inferAlong engine p known rest).outcome = .ok r ∨
      ∃ (node : Node) (schemaOf : NodeId → Schema) (schema : Schema),
        known.get? id = none ∧ p.node? id = some node ∧
        (∀ m ∈ node.inputs, known.get? m = some (schemaOf m)) ∧
        node.rule engine schemaOf ((p.name? id).getD "") = .ok schema ∧
        (inferAlong engine p (known.set id schema) rest).outcome = .ok r := by
  cases hknown : known.get? id with
  | some schema =>
    rw [inferAlong_skip (Or.inr ⟨schema, hknown⟩)] at h
    exact Or.inl ⟨Or.inr ⟨schema, rfl⟩, h⟩
  | none =>
    cases hnode : p.node? id with
    | none =>
      rw [inferAlong_skip (Or.inl hnode)] at h
      exact Or.inl ⟨Or.inl rfl, h⟩
    | some node =>
      rw [inferAlong_cons hknown hnode] at h
      obtain ⟨schema, hschema, hrest⟩ := bind_eq_ok h
      obtain ⟨schemaOf, hinputs⟩ := inputs_known hschema
      rw [inferNode_outcome hinputs] at hschema
      exact Or.inr ⟨node, schemaOf, schema, rfl, rfl, hinputs, mapError_eq_ok hschema, hrest⟩

lemma inferAlong_extends (h : (inferAlong engine p known order).outcome = .ok r) :
    ∀ id schema, known.get? id = some schema → r.get? id = some schema := by
  induction order generalizing known with
  | nil =>
    obtain rfl := Except.ok.inj h
    exact fun _ _ hget => hget
  | cons next rest ih =>
    rcases inferAlong_cons_ok h with ⟨_, hrest⟩ | ⟨_, _, _, hknown, _, _, _, hrest⟩
    · exact ih hrest
    · intro id schema hget
      have hne : id ≠ next := by
        rintro rfl
        rw [hknown] at hget
        cases hget
      exact ih hrest id schema ((InferredPlan.get?_set_ne hne).trans hget)

lemma inferAlong_length (h : (inferAlong engine p known order).outcome = .ok r) :
    r.schemas.length = known.schemas.length := by
  induction order generalizing known with
  | nil =>
    obtain rfl := Except.ok.inj h
    rfl
  | cons next rest ih =>
    rcases inferAlong_cons_ok h with ⟨_, hrest⟩ | ⟨_, _, _, _, _, _, _, hrest⟩
    · exact ih hrest
    · exact (ih hrest).trans (known.length_set _ _)

lemma inferAlong_complete (h : (inferAlong engine p known order).outcome = .ok r)
    (hlen : known.schemas.length = p.count) (hid : id ∈ order) (hin : p.contains id = true) :
    ∃ schema, r.get? id = some schema := by
  induction order generalizing known with
  | nil => exact (List.not_mem_nil hid).elim
  | cons next rest ih =>
    rcases inferAlong_cons_ok h with ⟨hskip, hrest⟩ | ⟨_, _, schema, _, _, _, _, hrest⟩
    · rcases List.mem_cons.mp hid with rfl | hid
      · obtain ⟨node, hnode⟩ := exists_node hin
        rcases hskip with hskip | ⟨schema, hskip⟩
        · rw [hnode] at hskip
          cases hskip
        · exact ⟨schema, inferAlong_extends hrest id schema hskip⟩
      · exact ih hrest hlen hid
    · rcases List.mem_cons.mp hid with rfl | hid
      · rw [contains_iff, ← hlen] at hin
        exact ⟨schema, inferAlong_extends hrest id schema (InferredPlan.get?_set_self hin)⟩
      · exact ih hrest (by simpa using hlen) hid

def Typed (engine : Engine) (p : Plan) (r : InferredPlan) (id : NodeId) (schema : Schema) : Prop :=
  ∃ (node : Node) (schemaOf : NodeId → Schema), p.node? id = some node ∧
    (∀ m ∈ node.inputs, r.get? m = some (schemaOf m)) ∧
    node.rule engine schemaOf ((p.name? id).getD "") = .ok schema

lemma inferAlong_typed (h : (inferAlong engine p known order).outcome = .ok r) {schema : Schema}
    (hget : r.get? id = some schema) :
    known.get? id = some schema ∨ Typed engine p r id schema := by
  induction order generalizing known with
  | nil =>
    obtain rfl := Except.ok.inj h
    exact Or.inl hget
  | cons next rest ih =>
    rcases inferAlong_cons_ok h with
      ⟨_, hrest⟩ | ⟨node, schemaOf, new, hknown, hnode, hinputs, hrule, hrest⟩
    · exact ih hrest
    · rcases ih hrest with hset | htyped
      · rcases InferredPlan.get?_set_cases hset with ⟨rfl, rfl⟩ | hbefore
        · refine Or.inr ⟨node, schemaOf, hnode, ?_, hrule⟩
          intro m hm
          -- an input was known before the node, and is never overwritten
          have hne : m ≠ id := by
            rintro rfl
            rw [hinputs m hm] at hknown
            cases hknown
          exact inferAlong_extends hrest m _ ((InferredPlan.get?_set_ne hne).trans (hinputs m hm))
        · exact Or.inl hbefore
      · exact Or.inr htyped

lemma infer_outcome (engine : Engine) (p : Plan) (known : InferredPlan) :
    (p.inferFrom engine known).outcome =
      p.sort >>= fun order => (inferAlong engine p known order).outcome := by
  simp only [inferFrom, Traced.outcome_bind, Traced.outcome_ofExcept]
  rfl

theorem infer_typed (engine : Engine) (p : Plan) (r : InferredPlan)
    (hnames : p.names.length = p.count) (h : (p.infer engine).outcome = .ok r) :
    r.schemas.length = p.count ∧ ∀ id, p.contains id = true → ∃ name schema,
      p.name? id = some name ∧ r.get? id = some schema ∧
      (∀ own, p.node? id = some (.source own) → schema = own) ∧
      ∀ kind operator parameters, p.node? id = some (.operator kind operator parameters) →
        ∃ (schemaOf : NodeId → Schema) (inferred : Schema),
          (∀ m ∈ p.inputs id, r.get? m = some (schemaOf m)) ∧
          ((Operation.applied kind operator (parameters.map (·.fill schemaOf))).infer engine).outcome =
            .ok inferred ∧ schema = inferred.rename name := by
  rw [infer, infer_outcome] at h
  obtain ⟨order, horder, halong⟩ := bind_eq_ok h
  refine ⟨(inferAlong_length halong).trans p.length_unknown, ?_⟩
  intro id hid
  obtain ⟨schema, hschema⟩ :=
    inferAlong_complete halong p.length_unknown (sort_complete horder hid) hid
  have hname := List.getElem?_eq_getElem (hnames ▸ contains_iff.mp hid)
  rcases inferAlong_typed halong hschema with hknown | ⟨node, schemaOf, hnode, hinputs, hrule⟩
  · rw [get?_unknown] at hknown
    cases hknown
  rw [show p.name? id = some _ from hname, Option.getD_some] at hrule
  refine ⟨_, schema, hname, hschema, ?_, ?_⟩
  · intro own hown
    obtain rfl := Option.some.inj (hnode.symm.trans hown)
    exact (Except.ok.inj hrule).symm
  · intro kind operator parameters hop
    obtain rfl := Option.some.inj (hnode.symm.trans hop)
    obtain ⟨inferred, hrename, hinferred⟩ := Node.rule_operator hrule
    exact ⟨schemaOf, inferred, inputs_of_node hnode ▸ hinputs, hinferred, hrename⟩

def cells : Schema := ((Schema.new "cells").push (.attr ⟨"v", .float⟩)).1

def loaded : Plan where
  nodes := [
    .operator .scan "scan" [⟨"inputTar", .input ⟨1⟩⟩],
    .source cells,
    .operator .comparison "comparison" [⟨"inputTar", .input ⟨0⟩⟩]]
  names := ["first", "cells", "last"]
  parentColumn := [⟨1⟩]
  parentSpans := [⟨0, 1⟩, ⟨0, 0⟩, ⟨0, 0⟩]
  firstEdges := [noEdge, 0, noEdge]
  edgeTargets := [⟨0⟩]
  nextEdges := [noEdge]

theorem loaded_typed : ∃ r, (loaded.infer ({} : Config)).outcome = .ok r ∧
    loaded.parents ⟨2⟩ ≠ loaded.inputs ⟨2⟩ ∧
    ∃ (input inferred : Schema), r.get? ⟨0⟩ = some input ∧
      ((Operation.ofKind .comparison [⟨"inputTar", .schema input⟩]).infer ({} : Config)).outcome =
        .ok inferred ∧ r.get? ⟨2⟩ = some (inferred.rename "last") := by
  let marked := cells.pushAll [.attr ⟨"mask", .boolean⟩, .attr ⟨"offset", .long⟩]
  let r : InferredPlan := ⟨[some (cells.rename "first"), some cells, some (marked.rename "last")]⟩
  have hr : (loaded.infer ({} : Config)).outcome = .ok r := by decide
  obtain ⟨_, schema, hname, hschema, _, hoperator⟩ :=
    (infer_typed _ loaded r rfl hr).2 ⟨2⟩ (by decide)
  obtain ⟨schemaOf, inferred, hinputs, hinferred, rfl⟩ := hoperator _ _ _ rfl
  obtain rfl := Option.some.inj hname
  exact ⟨r, hr, by decide, schemaOf ⟨0⟩, inferred, hinputs ⟨0⟩ (by decide), hinferred, hschema⟩

end Plan

end TensorSchema
