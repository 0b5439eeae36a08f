import Mathlib
import TensorSchema.Proofs.Conformance
import TensorSchema.Proofs.Inference.Layout

namespace TensorSchema

namespace Inference

variable {engine : Engine} {arguments : Arguments} {es : List Element}

lemma Layout.nodup (h : Layout engine arguments es) : (es.map Element.name).Nodup := by
  cases arguments with
  | scan | filter | split | logical | comparison | cross =>
    obtain rfl := h
    exact Schema.nodup_distinct _
  | select =>
    obtain ⟨_, _, rfl⟩ := h
    exact Schema.nodup_distinct _
  | subset input bounds =>
    rw [names_of_narrowed (narrowAll_ok h)]
    exact Schema.nodup_distinct _
  | arithmetic =>
    obtain ⟨_, _, rfl⟩ := h
    exact Schema.nodup_distinct _
  | dimensionJoin =>
    obtain ⟨_, _, _, rfl⟩ := h
    exact Schema.nodup_distinct _
  | aggregate =>
    obtain ⟨_, _, rfl⟩ := h
    exact Schema.nodup_distinct _
  | userDefined => exact h.elim

end Inference

lemma Arguments.elements_result (arguments : Arguments) (es : List Element) :
    (arguments.result es).elements = es := by
  unfold result
  split
  next source hsource => exact Conformance.elements_propagate source _
  next => rfl

/-- Element names stay distinct through any edits. Inference gives distinct names from any inputs,
even from inputs in which names are repeated. -/
theorem names_distinct :
    (∀ (name : String) (edits : List Schema.Edit), ((Schema.new name).edited edits).names.Nodup) ∧
    ∀ (engine : Engine) (op : Operation) (out : Schema), (op.infer engine).outcome = .ok out →
      out.names.Nodup := by
  constructor
  · intro name edits
    exact Schema.nodup_edited (s := .new name) List.nodup_nil edits
  · intro engine op out h
    obtain ⟨arguments, es, _, hlayout, rfl⟩ := Operation.infer_layout h
    rw [Schema.names, Arguments.elements_result]
    exact hlayout.nodup

def repeated : Schema :=
  ⟨"repeated", [.attr ⟨"v", .int⟩, .attr ⟨"v", .float⟩, .attr ⟨"v-new", .long⟩], none, ∅⟩

def unmarked : Config where
  conventions := { rightPrefix := "" }

def repeatedCross : Operation :=
  .ofKind .cross [⟨"left", .schema repeated⟩, ⟨"right", .schema repeated⟩]

theorem repeatedCross_distinct : ¬ repeated.names.Nodup ∧
    ∃ out, (repeatedCross.infer unmarked).outcome = .ok out ∧ out.elements.length = 6 ∧
      out.names.Nodup := by
  let out := (Schema.new "").pushAll (repeated.elements ++ repeated.elements)
  have hout : (repeatedCross.infer unmarked).outcome = .ok out := by decide
  exact ⟨by decide, out, hout, by decide, names_distinct.2 unmarked repeatedCross out hout⟩

lemma Operation.infer_carries {engine : Engine} {op : Operation} {out : Schema}
    (h : (op.infer engine).outcome = .ok out) :
    (op.kind ∈ OperatorKind.typeKeeping ∧
      ∃ input, op.inputSchema = .ok input ∧ Conformance.Carries input out) ∨
    op.kind ∉ OperatorKind.typeKeeping ∧ out.nominal = none ∧ out.roles = ∅ := by
  obtain ⟨arguments, es, harguments, _, rfl⟩ := infer_layout h
  rcases typeSource?_arguments harguments with ⟨hkind, input, hinput, hsource⟩ | ⟨hkind, hsource⟩
  · refine Or.inl ⟨hkind, input, hinput, ?_⟩
    rw [Arguments.result, hsource]
    exact Conformance.carries_propagate input es
  · refine Or.inr ⟨hkind, ?_⟩
    rw [Arguments.result, hsource]
    exact ⟨rfl, rfl⟩

/-- The result of an operator that keeps types has the type of the input, with the bindings that
survive, exactly if every bound mandatory role keeps its element. Other results have no type. -/
theorem infer_conforms (engine : Engine) (op : Operation) (out : Schema)
    (h : (op.infer engine).outcome = .ok out) :
    (op.kind ∈ OperatorKind.typeKeeping →
      ∃ input, op.inputSchema = .ok input ∧ Conformance.Carries input out) ∧
    (op.kind ∉ OperatorKind.typeKeeping → out.nominal = none ∧ out.roles = ∅) := by
  rcases Operation.infer_carries h with ⟨hkind, hcarries⟩ | ⟨hkind, hplain⟩
  · exact ⟨fun _ => hcarries, fun hother => (hother hkind).elim⟩
  · exact ⟨fun hother => (hkind hother).elim, fun _ => hplain⟩

def measurement : NominalType :=
  ((NominalType.new "measurement").withRole "value" true).withRole "error" false

def reading : Schema := (Schema.new "reading").edited
  [.push (.attr ⟨"v", .float⟩), .push (.attr ⟨"e", .float⟩), .withType measurement,
    .bindRole "value" "v", .bindRole "error" "e"]

def keeping (element : String) : Operation :=
  .ofKind .select [⟨"inputTar", .schema reading⟩, ⟨"operand0", .text element⟩]

theorem keeping_conforms :
    (∃ out, ((keeping "v").infer ({} : Config)).outcome = .ok out ∧ out.nominal = some measurement ∧
      Conformance.Retains reading out measurement ∧ ¬ "e" ∈ out.names) ∧
    ∃ out, ((keeping "e").infer ({} : Config)).outcome = .ok out ∧ out.nominal = none ∧
      ¬ Conformance.Retains reading out measurement := by
  let value := (Schema.new "").edited
    [.push (.attr ⟨"v", .float⟩), .withType measurement, .bindRole "value" "v"]
  let error := ((Schema.new "").push (.attr ⟨"e", .float⟩)).1
  have hvalue : ((keeping "v").infer ({} : Config)).outcome = .ok value := by decide
  have herror : ((keeping "e").infer ({} : Config)).outcome = .ok error := by decide
  obtain ⟨input, hinput, hcarries⟩ := (infer_conforms _ _ _ hvalue).1 (by decide)
  obtain ⟨input', hinput', hcarries'⟩ := (infer_conforms _ _ _ herror).1 (by decide)
  obtain rfl : reading = input := Except.ok.inj hinput
  obtain rfl : reading = input' := Except.ok.inj hinput'
  refine ⟨⟨value, hvalue, rfl, ((hcarries.typed_iff measurement).mp rfl).2, by decide⟩,
    error, herror, rfl, ?_⟩
  intro hretains
  cases (hcarries'.typed_iff measurement).mpr ⟨by decide, hretains⟩

end TensorSchema
