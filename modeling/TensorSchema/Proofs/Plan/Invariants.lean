import Mathlib
import TensorSchema.Proofs.Plan.Typing

/-! A property of schemas that the sources of a plan have and that operators preserve holds of every schema
that is inferred for the plan. -/

namespace TensorSchema

@[simp] lemma Operation.parameters_applied (kind : OperatorKind) (name : String)
    (parameters : List Parameter) : (applied kind name parameters).parameters = parameters := by
  cases kind <;> rfl

def Engine.Preserves (engine : Engine) (motive : Schema → Prop) : Prop :=
  ∀ (op : Operation) (out : Schema) (name : String),
    (∀ p ∈ op.parameters, ∀ s, p.value = .schema s → motive s) →
    (op.infer engine).outcome = .ok out → motive (out.rename name)

namespace Plan

variable {engine : Engine} {motive : Schema → Prop} {p : Plan} {known r : InferredPlan}
  {order : List NodeId}

lemma fill_schema {kind : OperatorKind} {label : String} {parameters : List PlanParameter}
    {schemaOf : NodeId → Schema}
    (hinputs : ∀ m ∈ (Node.operator kind label parameters).inputs, motive (schemaOf m)) :
    ∀ filled ∈ parameters.map (·.fill schemaOf), ∀ s, filled.value = .schema s → motive s := by
  intro filled hfilled s hs
  obtain ⟨parameter, hparameter, rfl⟩ := List.mem_map.mp hfilled
  obtain ⟨name, value⟩ := parameter
  cases value with
  | input m =>
    obtain rfl := Value.schema.inj hs
    exact hinputs m (List.mem_filterMap.mpr ⟨_, hparameter, rfl⟩)
  | text s => cases hs
  | number x => cases hs

lemma rule_preserves {node : Node} {schemaOf : NodeId → Schema} {name : String} {schema : Schema}
    (hengine : engine.Preserves motive) (hsource : ∀ own, node = .source own → motive own)
    (hinputs : ∀ m ∈ node.inputs, motive (schemaOf m))
    (h : node.rule engine schemaOf name = .ok schema) : motive schema := by
  cases node with
  | source own =>
    obtain rfl := Except.ok.inj h
    exact hsource own rfl
  | operator kind label parameters =>
    obtain ⟨inferred, rfl, hinferred⟩ := Node.rule_operator h
    apply hengine _ inferred name _ hinferred
    rw [Operation.parameters_applied]
    exact fill_schema hinputs

lemma inferAlong_preserves (hengine : engine.Preserves motive)
    (hsource : ∀ own, Node.source own ∈ p.nodes → motive own)
    (hknown : ∀ id s, known.get? id = some s → motive s)
    (h : (inferAlong engine p known order).outcome = .ok r) :
    ∀ id s, r.get? id = some s → motive s := by
  induction order generalizing known with
  | nil =>
    obtain rfl := Except.ok.inj h
    exact hknown
  | cons next rest ih =>
    rcases inferAlong_cons_ok h with
      ⟨_, hrest⟩ | ⟨node, schemaOf, new, _, hnode, hinputs, hrule, hrest⟩
    · exact ih hknown hrest
    · have hnew : motive new := by
        apply rule_preserves hengine _ _ hrule
        · rintro own rfl
          exact hsource own (List.mem_of_getElem? hnode)
        · intro m hm
          exact hknown m _ (hinputs m hm)
      apply ih _ hrest
      intro id s hget
      rcases InferredPlan.get?_set_cases hget with ⟨_, rfl⟩ | hbefore
      · exact hnew
      · exact hknown id s hbefore

lemma infer_preserves (hengine : engine.Preserves motive)
    (hsource : ∀ own, Node.source own ∈ p.nodes → motive own)
    (h : (p.infer engine).outcome = .ok r) : ∀ id s, r.get? id = some s → motive s := by
  rw [infer, infer_outcome] at h
  obtain ⟨order, _, halong⟩ := bind_eq_ok h
  apply inferAlong_preserves hengine hsource _ halong
  intro id s hget
  rw [get?_unknown] at hget
  cases hget

end Plan

end TensorSchema
