import Mathlib
import TensorSchema.Inference.Basic
import TensorSchema.Proofs.Schema.Names

namespace TensorSchema

def OperatorKind.byName : List OperatorKind :=
  [scan, filter, split, logical, comparison, subset, arithmetic, aggregate]

namespace Operation

def reordered (op : Operation) (parameters : List Parameter) : Operation := { op with parameters }

lemma parameter?_eq_some {op : Operation} {name : String} {p : Parameter}
    (hnodup : (op.parameters.map Parameter.name).Nodup) :
    op.parameter? name = some p ↔ p ∈ op.parameters ∧ p.name = name := by
  constructor
  · intro h
    exact ⟨List.mem_of_find?_eq_some h, by simpa using List.find?_some h⟩
  · rintro ⟨hp, rfl⟩
    exact find?_of_mem hnodup hp

section Reordered

variable {op : Operation} {parameters : List Parameter} {α : Type}
  (hperm : parameters.Perm op.parameters) (hnodup : (op.parameters.map Parameter.name).Nodup)
include hperm hnodup

lemma parameter?_reordered (name : String) :
    (op.reordered parameters).parameter? name = op.parameter? name := by
  have hnodup' : ((op.reordered parameters).parameters.map Parameter.name).Nodup :=
    (hperm.map Parameter.name).nodup_iff.mpr hnodup
  apply Option.ext
  intro p
  rw [parameter?_eq_some hnodup', parameter?_eq_some hnodup]
  exact and_congr_left' hperm.mem_iff

lemma required_reordered (name : String) :
    (op.reordered parameters).required name = op.required name := by
  rw [required, parameter?_reordered hperm hnodup]
  rfl

lemma optional_reordered (read : Parameter → Except SchemaError α) (name : String) :
    (op.reordered parameters).optional read name = op.optional read name := by
  rw [optional, parameter?_reordered hperm hnodup]
  rfl

lemma optionalText_reordered (name : String) :
    (op.reordered parameters).optionalText name = op.optionalText name :=
  optional_reordered hperm hnodup op.textOf name

lemma requiredText_reordered (name : String) :
    (op.reordered parameters).requiredText name = op.requiredText name :=
  congrArg (· >>= op.textOf) (required_reordered hperm hnodup name)

lemma requiredNumber_reordered (name : String) :
    (op.reordered parameters).requiredNumber name = op.requiredNumber name :=
  congrArg (· >>= op.numberOf) (required_reordered hperm hnodup name)

lemma requiredSchema_reordered (name : String) :
    (op.reordered parameters).requiredSchema name = op.requiredSchema name :=
  congrArg (· >>= op.schemaOf) (required_reordered hperm hnodup name)

lemma item_reordered (name : String) (read : String → Except SchemaError α) :
    (op.reordered parameters).item name read = op.item name read := by
  rw [item, optionalText_reordered hperm hnodup]
  rfl

lemma bound?_reordered : (op.reordered parameters).bound? = op.bound? := by
  funext i
  simp only [bound?, item_reordered hperm hnodup, requiredNumber_reordered hperm hnodup]

lemma pair?_reordered : (op.reordered parameters).pair? = op.pair? := by
  funext k
  simp only [pair?, item_reordered hperm hnodup, requiredText_reordered hperm hnodup]

lemma call?_reordered : (op.reordered parameters).call? = op.call? := by
  funext k
  simp only [call?, item_reordered hperm hnodup, optionalText_reordered hperm hnodup]

omit hnodup in
lemma items_reordered (read : ℕ → Except SchemaError (Option α)) :
    (op.reordered parameters).items read = op.items read :=
  congrArg (readItems read · 0) hperm.length_eq

lemma inputSchema_reordered (hinput : (∃ p ∈ op.parameters, p.name = ParameterName.input) ∨
      parameters.head? = op.parameters.head?) :
    (op.reordered parameters).inputSchema = op.inputSchema := by
  rw [inputSchema, inputSchema, parameter?_reordered hperm hnodup]
  cases hfound : op.parameter? ParameterName.input with
  | some p => rfl
  | none =>
    have hnone : ¬ ∃ p ∈ op.parameters, p.name = ParameterName.input := by
      simpa [parameter?] using hfound
    have hhead : (op.reordered parameters).parameters.head? = op.parameters.head? :=
      hinput.resolve_left hnone
    rw [hhead]
    rfl

lemma dimensionJoinArguments_reordered :
    (op.reordered parameters).dimensionJoinArguments = op.dimensionJoinArguments := by
  simp only [dimensionJoinArguments, requiredSchema_reordered hperm hnodup, items_reordered hperm,
    pair?_reordered hperm hnodup]

lemma arguments_of_byName (hkind : op.kind ∈ OperatorKind.byName)
    (hinput : (op.reordered parameters).inputSchema = op.inputSchema) :
    (op.reordered parameters).arguments = op.arguments := by
  have hsame : (op.reordered parameters).kind = op.kind := rfl
  unfold Operation.arguments
  rw [hsame]
  cases hop : op.kind with
  | scan | filter | split | logical | comparison => simp only [hinput]
  | subset => simp only [subsetArguments, hinput, items_reordered hperm, bound?_reordered hperm hnodup]
  | arithmetic =>
    simp only [arithmeticArguments, hinput, required_reordered hperm hnodup,
      optional_reordered hperm hnodup, requiredText_reordered hperm hnodup,
      optionalText_reordered hperm hnodup]
    rfl
  | aggregate =>
    simp only [aggregateArguments, hinput, items_reordered hperm, call?_reordered hperm hnodup,
      optionalText_reordered hperm hnodup]
  | select | cross | dimensionJoin | userDefined => simp [hop, OperatorKind.byName] at hkind

end Reordered

/-- Parameters with distinct names can be put in any order. An operator that reads an input has to find it
by its name, or else the first parameter has to stay the first. -/
theorem arguments_reordered (op : Operation) (parameters : List Parameter)
    (hperm : parameters.Perm op.parameters) (hnodup : (op.parameters.map Parameter.name).Nodup)
    (hkind : op.kind = .dimensionJoin ∨ op.kind ∈ OperatorKind.byName ∧
      ((∃ p ∈ op.parameters, p.name = ParameterName.input) ∨
        parameters.head? = op.parameters.head?)) :
    (op.reordered parameters).arguments = op.arguments ∧
      ∀ engine, (op.reordered parameters).infer engine = op.infer engine := by
  have harguments : (op.reordered parameters).arguments = op.arguments := by
    rcases hkind with hjoin | ⟨hkind, hinput⟩
    · have hjoin' : (op.reordered parameters).kind = .dimensionJoin := hjoin
      simp only [Operation.arguments, hjoin, hjoin', dimensionJoinArguments_reordered hperm hnodup]
    · exact arguments_of_byName hperm hnodup hkind (inputSchema_reordered hperm hnodup hinput)
  refine ⟨harguments, fun engine => ?_⟩
  rw [infer, harguments, infer]

def misfit : Operation := .ofKind .arithmetic
  [⟨"operand1", .schema (.new "b")⟩, ⟨"op", .number 1⟩, ⟨"operand0", .schema (.new "a")⟩,
    ⟨"inputTar", .schema (.new "t")⟩]

theorem misfit_reordered :
    (misfit.reordered misfit.parameters.reverse).arguments =
      .error (.wrongKind .arithmetic "operand0" .operand .schema) ∧
    ∀ engine, (misfit.reordered misfit.parameters.reverse).infer engine = misfit.infer engine := by
  have hnodup : (misfit.parameters.map Parameter.name).Nodup := by decide
  have hinput : ∃ p ∈ misfit.parameters, p.name = ParameterName.input := by decide
  obtain ⟨harguments, hinfer⟩ := arguments_reordered misfit misfit.parameters.reverse
    (List.reverse_perm _) hnodup (Or.inr ⟨by decide, Or.inl hinput⟩)
  refine ⟨harguments.trans ?_, hinfer⟩
  decide

end Operation

end TensorSchema
