import Mathlib
import TensorSchema.Operation.Arguments
import TensorSchema.Proofs.Outcome

namespace TensorSchema

def OperatorKind.typeKeeping : List OperatorKind :=
  [scan, filter, split, select, subset, arithmetic, aggregate]

def Arguments.typeSource? : Arguments → Option Schema
  | .scan input => some input
  | .filter input => some input
  | .split input => some input
  | .select input _ => some input
  | .subset input _ => some input
  | .arithmetic input .. => some input
  | .aggregate input .. => some input
  | .logical _ => none
  | .comparison _ => none
  | .cross .. => none
  | .dimensionJoin .. => none
  | .userDefined _ => none

def Arguments.inputs : Arguments → List Schema
  | .scan input => [input]
  | .filter input => [input]
  | .split input => [input]
  | .select input _ => [input]
  | .subset input _ => [input]
  | .logical input => [input]
  | .comparison input => [input]
  | .arithmetic input .. => [input]
  | .cross left right => [left, right]
  | .dimensionJoin left right _ => [left, right]
  | .aggregate input .. => [input]
  | .userDefined _ => []

lemma Arguments.typeSource?_cases (arguments : Arguments) :
    (arguments.kind ∈ OperatorKind.typeKeeping ∧ ∃ input, arguments.typeSource? = some input) ∨
      arguments.kind ∉ OperatorKind.typeKeeping ∧ arguments.typeSource? = none := by
  cases arguments <;> simp [kind, typeSource?, OperatorKind.typeKeeping]

lemma Value.eq_schema {value : Value} {s : Schema} (h : value.schema? = some s) :
    value = .schema s := by
  cases value with
  | schema t => rw [Option.some.inj h]
  | text s => cases h
  | number x => cases h

namespace Operation

def Reads (op : Operation) (s : Schema) : Prop := ∃ p ∈ op.parameters, p.value = .schema s

variable {op : Operation} {arguments : Arguments} {input : Schema}

lemma schemaOf_ok {p : Parameter} (h : op.schemaOf p = .ok input) : p.value = .schema input := by
  unfold schemaOf at h
  split at h
  next s hs =>
    obtain rfl := Except.ok.inj h
    exact Value.eq_schema hs
  next => cases h

lemma inputSchema_reads (h : op.inputSchema = .ok input) : op.Reads input := by
  unfold inputSchema at h
  split at h
  next p hp => exact ⟨p, List.mem_of_find?_eq_some hp, schemaOf_ok h⟩
  next =>
    split at h
    next s hs =>
      obtain rfl := Except.ok.inj h
      obtain ⟨p, hp, hs⟩ := Option.bind_eq_some_iff.mp hs
      exact ⟨p, List.mem_of_head? hp, Value.eq_schema hs⟩
    next => cases h

lemma requiredSchema_reads {name : String} (h : op.requiredSchema name = .ok input) :
    op.Reads input := by
  obtain ⟨p, hp, h⟩ := bind_eq_ok h
  unfold required at hp
  split at hp
  next found hfound =>
    obtain rfl := Except.ok.inj hp
    exact ⟨found, List.mem_of_find?_eq_some hfound, schemaOf_ok h⟩
  next => cases hp

lemma subsetArguments_ok (h : op.subsetArguments = .ok arguments) :
    ∃ input bounds, op.inputSchema = .ok input ∧ arguments = .subset input bounds := by
  obtain ⟨input, hinput, h⟩ := bind_eq_ok h
  obtain ⟨bounds, _, h⟩ := bind_eq_ok h
  exact ⟨input, bounds, hinput, (Except.ok.inj h).symm⟩

lemma arithmeticArguments_ok (h : op.arithmeticArguments = .ok arguments) :
    ∃ input operator left right newMember, op.inputSchema = .ok input ∧
      arguments = .arithmetic input operator left right newMember := by
  obtain ⟨left, _, h⟩ := bind_eq_ok h
  obtain ⟨right, _, h⟩ := bind_eq_ok h
  obtain ⟨input, hinput, h⟩ := bind_eq_ok h
  obtain ⟨operator, _, h⟩ := bind_eq_ok h
  obtain ⟨newMember, _, h⟩ := bind_eq_ok h
  exact ⟨input, operator, left, _, newMember, hinput, (Except.ok.inj h).symm⟩

lemma crossArguments_ok (h : op.crossArguments = .ok arguments) :
    ∃ left right, op.Reads left ∧ op.Reads right ∧ arguments = .cross left right := by
  unfold crossArguments at h
  split at h
  next first second rest hparameters =>
    obtain ⟨left, hleft, h⟩ := bind_eq_ok h
    obtain ⟨right, hright, h⟩ := bind_eq_ok h
    refine ⟨left, right, ⟨first, ?_, schemaOf_ok hleft⟩, ⟨_, ?_, schemaOf_ok hright⟩,
      (Except.ok.inj h).symm⟩
    · rw [hparameters]
      exact List.mem_cons_self
    · rw [hparameters]
      exact List.mem_cons_of_mem _ (List.getLast_mem _)
  next => cases h

lemma dimensionJoinArguments_ok (h : op.dimensionJoinArguments = .ok arguments) :
    ∃ left right pairs, op.Reads left ∧ op.Reads right ∧
      arguments = .dimensionJoin left right pairs := by
  obtain ⟨left, hleft, h⟩ := bind_eq_ok h
  obtain ⟨right, hright, h⟩ := bind_eq_ok h
  obtain ⟨pairs, _, h⟩ := bind_eq_ok h
  exact ⟨left, right, pairs, requiredSchema_reads hleft, requiredSchema_reads hright,
    (Except.ok.inj h).symm⟩

lemma aggregateArguments_ok (h : op.aggregateArguments = .ok arguments) :
    ∃ input groupBy calls, op.inputSchema = .ok input ∧
      arguments = .aggregate input groupBy calls := by
  obtain ⟨input, hinput, h⟩ := bind_eq_ok h
  obtain ⟨groupBy, _, h⟩ := bind_eq_ok h
  obtain ⟨calls, _, h⟩ := bind_eq_ok h
  exact ⟨input, groupBy, calls, hinput, (Except.ok.inj h).symm⟩

lemma arguments_ok (h : op.arguments = .ok arguments) :
    arguments.kind = op.kind ∧
      (∀ input, arguments.typeSource? = some input → op.inputSchema = .ok input) ∧
      ∀ s ∈ arguments.inputs, op.Reads s := by
  have hone : ∀ {input}, op.inputSchema = .ok input → ∀ s ∈ [input], op.Reads s := by
    intro input hinput s hs
    rw [List.mem_singleton.mp hs]
    exact inputSchema_reads hinput
  have htwo : ∀ {left right}, op.Reads left → op.Reads right → ∀ s ∈ [left, right], op.Reads s := by
    intro left right hleft hright
    exact List.forall_mem_cons.mpr ⟨hleft, List.forall_mem_singleton.mpr hright⟩
  unfold Operation.arguments at h
  cases hkind : op.kind with
  | scan | filter | split | select =>
    rw [hkind] at h
    obtain ⟨input, hinput, rfl⟩ := map_eq_ok h
    exact ⟨rfl, fun _ hsource => Option.some.inj hsource ▸ hinput, hone hinput⟩
  | logical | comparison =>
    rw [hkind] at h
    obtain ⟨input, hinput, rfl⟩ := map_eq_ok h
    exact ⟨rfl, nofun, hone hinput⟩
  | subset =>
    rw [hkind] at h
    obtain ⟨input, _, hinput, rfl⟩ := subsetArguments_ok h
    exact ⟨rfl, fun _ hsource => Option.some.inj hsource ▸ hinput, hone hinput⟩
  | arithmetic =>
    rw [hkind] at h
    obtain ⟨input, _, _, _, _, hinput, rfl⟩ := arithmeticArguments_ok h
    exact ⟨rfl, fun _ hsource => Option.some.inj hsource ▸ hinput, hone hinput⟩
  | aggregate =>
    rw [hkind] at h
    obtain ⟨input, _, _, hinput, rfl⟩ := aggregateArguments_ok h
    exact ⟨rfl, fun _ hsource => Option.some.inj hsource ▸ hinput, hone hinput⟩
  | cross =>
    rw [hkind] at h
    obtain ⟨_, _, hleft, hright, rfl⟩ := crossArguments_ok h
    exact ⟨rfl, nofun, htwo hleft hright⟩
  | dimensionJoin =>
    rw [hkind] at h
    obtain ⟨_, _, _, hleft, hright, rfl⟩ := dimensionJoinArguments_ok h
    exact ⟨rfl, nofun, htwo hleft hright⟩
  | userDefined =>
    rw [hkind] at h
    obtain rfl := Except.ok.inj h
    exact ⟨rfl, nofun, nofun⟩

lemma typeSource?_arguments (h : op.arguments = .ok arguments) :
    (op.kind ∈ OperatorKind.typeKeeping ∧
      ∃ input, op.inputSchema = .ok input ∧ arguments.typeSource? = some input) ∨
    op.kind ∉ OperatorKind.typeKeeping ∧ arguments.typeSource? = none := by
  obtain ⟨hkind, hinput, _⟩ := arguments_ok h
  rw [← hkind]
  rcases arguments.typeSource?_cases with ⟨hkeeps, input, hsource⟩ | hother
  · exact Or.inl ⟨hkeeps, input, hinput input hsource, hsource⟩
  · exact Or.inr hother

end Operation

end TensorSchema
