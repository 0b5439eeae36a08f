import Mathlib
import TensorSchema.Plan.Inference
import TensorSchema.Proofs.Outcome
import TensorSchema.Proofs.Plan.Nodes

namespace TensorSchema

def PlanParameter.fill (schemaOf : NodeId → Schema) (parameter : PlanParameter) : Parameter where
  name := parameter.name
  value := match parameter.value with
    | .text s => .text s
    | .number x => .number x
    | .input m => .schema (schemaOf m)

def Node.rule (engine : Engine) (schemaOf : NodeId → Schema) (name : String) :
    Node → Except SchemaError Schema
  | .source schema => .ok schema
  | .operator kind label parameters =>
    ((Operation.applied kind label (parameters.map (·.fill schemaOf))).infer engine).outcome.map
      (·.rename name)

namespace Node

variable {engine : Engine} {schemaOf : NodeId → Schema} {name label : String} {kind : OperatorKind}
  {parameters : List PlanParameter}

lemma rule_operator {schema : Schema}
    (h : (operator kind label parameters).rule engine schemaOf name = .ok schema) :
    ∃ inferred : Schema, schema = inferred.rename name ∧
      ((Operation.applied kind label (parameters.map (·.fill schemaOf))).infer engine).outcome =
        .ok inferred := by
  obtain ⟨inferred, hinferred, rfl⟩ := map_eq_ok h
  exact ⟨inferred, rfl, hinferred⟩

lemma rule_eq_error {node : Node} {cause : SchemaError} :
    node.rule engine schemaOf name = .error cause ↔
      ∃ (kind : OperatorKind) (label : String) (parameters : List PlanParameter),
        node = operator kind label parameters ∧
        ((Operation.applied kind label (parameters.map (·.fill schemaOf))).infer engine).outcome =
          .error cause := by
  constructor
  · intro h
    cases node with
    | source schema => cases h
    | operator kind label parameters => exact ⟨kind, label, parameters, rfl, map_eq_error.mp h⟩
  · rintro ⟨kind, label, parameters, rfl, h⟩
    exact map_eq_error.mpr h

lemma rule_congr {node : Node} {f g : NodeId → Schema} (engine : Engine) (name : String)
    (h : ∀ m ∈ node.inputs, f m = g m) : node.rule engine f name = node.rule engine g name := by
  cases node with
  | source schema => rfl
  | operator kind label parameters =>
    have hfill : parameters.map (·.fill f) = parameters.map (·.fill g) := by
      apply List.map_congr_left
      intro parameter hp
      obtain ⟨label, value⟩ := parameter
      cases value with
      | input m =>
        have hm : m ∈ (operator kind label parameters).inputs :=
          List.mem_filterMap.mpr ⟨_, hp, rfl⟩
        simp only [PlanParameter.fill, h m hm]
      | text s => rfl
      | number x => rfl
    simp only [rule, hfill]

end Node

namespace Plan

variable {engine : Engine} {known : InferredPlan} {schemaOf : NodeId → Schema} {id : NodeId}
  {name operator : String} {kind : OperatorKind} {parameters : List PlanParameter}

lemma resolve_of_known {parameter : PlanParameter}
    (h : ∀ m, parameter.value.input? = some m → known.get? m = some (schemaOf m)) :
    resolve known id parameter = .ok (parameter.fill schemaOf) := by
  obtain ⟨label, value⟩ := parameter
  cases value with
  | input m => simp [resolve, PlanParameter.fill, h m rfl]
  | text s => rfl
  | number x => rfl

lemma known_of_resolve {parameter : PlanParameter} {filled : Parameter}
    (h : resolve known id parameter = .ok filled) {m : NodeId}
    (hm : parameter.value.input? = some m) : ∃ schema, known.get? m = some schema := by
  obtain ⟨label, value⟩ := parameter
  cases value with
  | input n =>
    obtain rfl := Option.some.inj hm
    cases hn : known.get? n with
    | none => simp [resolve, hn] at h
    | some schema => exact ⟨schema, rfl⟩
  | text s => cases hm
  | number x => cases hm

lemma operation_of_known
    (h : ∀ m ∈ (Node.operator kind operator parameters).inputs, known.get? m = some (schemaOf m)) :
    operation known id kind operator parameters =
      .ok (.applied kind operator (parameters.map (·.fill schemaOf))) := by
  have hfill : parameters.mapM (resolve known id) = .ok (parameters.map (·.fill schemaOf)) := by
    apply mapM_of_pure
    intro parameter hp
    apply resolve_of_known
    intro m hm
    exact h m (List.mem_filterMap.mpr ⟨parameter, hp, hm⟩)
  rw [operation, hfill]
  rfl

lemma known_of_operation {op : Operation} (h : operation known id kind operator parameters = .ok op)
    {m : NodeId} (hm : m ∈ (Node.operator kind operator parameters).inputs) :
    ∃ schema, known.get? m = some schema := by
  obtain ⟨filled, hfilled, _⟩ := bind_eq_ok h
  obtain ⟨parameter, hp, hm⟩ := List.mem_filterMap.mp hm
  obtain ⟨first, hfirst⟩ := mapM_eq_ok hfilled parameter hp
  exact known_of_resolve hfirst hm

variable {node : Node}

lemma inferNode_outcome (h : ∀ m ∈ node.inputs, known.get? m = some (schemaOf m)) :
    (inferNode engine known id name node).outcome =
      (node.rule engine schemaOf name).mapError (.inference id name) := by
  cases node with
  | source schema => rfl
  | operator kind operator parameters =>
    simp only [inferNode, operation_of_known h, Node.rule, Traced.outcome_bind,
      Traced.outcome_ofExcept, Traced.outcome_mapError, Except.bind]
    cases ((Operation.applied kind operator (parameters.map (·.fill schemaOf))).infer engine).outcome with
    | error e => rfl
    | ok schema => rfl

lemma exists_schemaOf {known : InferredPlan} {ms : List NodeId}
    (h : ∀ m ∈ ms, ∃ schema, known.get? m = some schema) :
    ∃ schemaOf : NodeId → Schema, ∀ m ∈ ms, known.get? m = some (schemaOf m) := by
  refine ⟨fun m => (known.get? m).getD (.new ""), ?_⟩
  intro m hm
  obtain ⟨schema, hschema⟩ := h m hm
  simp [hschema]

lemma inputs_known {schema : Schema} (h : (inferNode engine known id name node).outcome = .ok schema) :
    ∃ schemaOf : NodeId → Schema, ∀ m ∈ node.inputs, known.get? m = some (schemaOf m) := by
  apply exists_schemaOf
  intro m hm
  cases node with
  | source own => exact (List.not_mem_nil hm).elim
  | operator kind operator parameters =>
    simp only [inferNode, Traced.outcome_bind, Traced.outcome_ofExcept] at h
    obtain ⟨op, hop, _⟩ := bind_eq_ok h
    exact known_of_operation hop hm

end Plan

end TensorSchema
