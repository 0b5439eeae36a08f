import Mathlib
import TensorSchema.Inference.Basic
import TensorSchema.Proofs.Inference.Narrowing
import TensorSchema.Proofs.Operation.Arguments
import TensorSchema.Proofs.Schema.Names

/-! What inference can return: for each operator, the elements of the result, and the input whose type is
carried over to them. -/

namespace TensorSchema

def Arguments.result (arguments : Arguments) (elements : List Element) : Schema :=
  match arguments.typeSource? with
  | some source => Conformance.propagate source (.plain elements)
  | none => .plain elements

namespace Inference

open Schema (distinct plain)

def masked (conventions : Conventions) (input : Schema) : List Element :=
  input.elements ++
    [.attr ⟨conventions.maskAttribute, .boolean⟩, .attr ⟨conventions.offsetAttribute, .long⟩]

def joinedElements (conventions : Conventions) (left right : Schema) (pairs : List (String × String))
    (joined : List Element) : List Element :=
  joined ++ ((unpaired right pairs).map Element.dim ++ right.attributes.map Element.attr).map
      (prefixed conventions.rightPrefix)
    ++ (left.attributes.map Element.attr).map (prefixed conventions.leftPrefix)

def outputs (calls : List AggregateCall) : List Element :=
  calls.map fun c => .attr ⟨c.output, .double⟩

def Layout (engine : Engine) : Arguments → List Element → Prop
  | .scan input, es => es = distinct input.elements
  | .filter input, es => es = distinct input.elements
  | .split input, es => es = distinct input.elements
  | .select input kept, es =>
    ∃ chosen, selected engine.conventions input kept = .ok chosen ∧ es = distinct chosen
  | .subset input bounds, es => (narrowAll bounds (distinct input.elements)).outcome = .ok es
  | .logical input, es => es = distinct (masked engine.conventions input)
  | .comparison input, es => es = distinct (masked engine.conventions input)
  | .arithmetic input operator left right newMember, es =>
    ∃ computed, computedType input operator left right = .ok computed ∧
      es = distinct (input.elements ++
        [.attr (resultAttribute engine.conventions computed newMember)])
  | .cross left right, es => es = distinct (crossElements engine.conventions left right)
  | .dimensionJoin left right pairs, es => checkPairs left right pairs = .ok () ∧
    ∃ joined, (joinDimensions engine right pairs left.dimensions).outcome = .ok joined ∧
      es = distinct (joinedElements engine.conventions left right pairs joined)
  | .aggregate input groupBy calls, es =>
    ∃ dimensions, groups engine.conventions input groupBy = .ok dimensions ∧
      es = distinct (dimensions.map .dim ++ outputs calls)
  | .userDefined _, _ => False

variable {engine : Engine} {arguments : Arguments} {out : Schema}

lemma pushAll_copy (input : Schema) (es : List Element) :
    (input.copy .structural).pushAll es = plain (distinct (input.elements ++ es)) := by
  rw [Schema.copy_structural, ← Schema.pushAll_new, ← Schema.pushAll_new, ← Schema.pushAll_append]

lemma select_ok {conventions : Conventions} {input : Schema} {kept : List String}
    (h : (select conventions input kept).outcome = .ok out) :
    ∃ chosen, selected conventions input kept = .ok chosen ∧
      out = Conformance.propagate input (plain (distinct chosen)) := by
  rw [select, Traced.outcome_bind, Traced.outcome_ofExcept] at h
  obtain ⟨chosen, hchosen, hout⟩ := bind_eq_ok h
  rw [Conformance.outcome_carry, Schema.pushAll_new] at hout
  exact ⟨chosen, hchosen, (Except.ok.inj hout).symm⟩

lemma select_layout {input : Schema} {kept : List String}
    (h : (select engine.conventions input kept).outcome = .ok out) :
    ∃ es, Layout engine (.select input kept) es ∧ out = (Arguments.select input kept).result es := by
  obtain ⟨chosen, hchosen, rfl⟩ := select_ok h
  exact ⟨_, ⟨chosen, hchosen, rfl⟩, rfl⟩

lemma subset_layout {input : Schema} {bounds : List Bound}
    (h : (subset input bounds).outcome = .ok out) :
    ∃ es, Layout engine (.subset input bounds) es ∧ out = (Arguments.subset input bounds).result es := by
  rw [subset, Schema.copy_structural, Traced.outcome_bind] at h
  obtain ⟨es, hes, hout⟩ := bind_eq_ok h
  exact ⟨es, hes, (Except.ok.inj hout).symm⟩

lemma arithmetic_layout {input : Schema} {operator : String} {left right : Operand}
    {newMember : Option String}
    (h : (arithmetic engine.conventions input operator left right newMember).outcome = .ok out) :
    ∃ es, Layout engine (.arithmetic input operator left right newMember) es ∧
      out = (Arguments.arithmetic input operator left right newMember).result es := by
  rw [arithmetic, Traced.outcome_bind, Traced.outcome_ofExcept] at h
  obtain ⟨computed, hcomputed, hout⟩ := bind_eq_ok h
  refine ⟨_, ⟨computed, hcomputed, rfl⟩, ?_⟩
  rw [Arguments.result, Arguments.typeSource?, ← pushAll_copy]
  exact (Except.ok.inj hout).symm

lemma dimensionJoin_layout {left right : Schema} {pairs : List (String × String)}
    (h : (dimensionJoin engine left right pairs).outcome = .ok out) :
    ∃ es, Layout engine (.dimensionJoin left right pairs) es ∧
      out = (Arguments.dimensionJoin left right pairs).result es := by
  rw [dimensionJoin, Traced.outcome_bind, Traced.outcome_ofExcept] at h
  obtain ⟨_, hpairs, h⟩ := bind_eq_ok h
  rw [Traced.outcome_bind] at h
  obtain ⟨joined, hjoined, hout⟩ := bind_eq_ok h
  refine ⟨_, ⟨hpairs, joined, hjoined, rfl⟩, ?_⟩
  rw [Arguments.result, Arguments.typeSource?, ← Schema.pushAll_new]
  exact (Except.ok.inj hout).symm

lemma aggregate_layout {input : Schema} {groupBy : List String} {calls : List AggregateCall}
    (h : (aggregate engine.conventions input groupBy calls).outcome = .ok out) :
    ∃ es, Layout engine (.aggregate input groupBy calls) es ∧
      out = (Arguments.aggregate input groupBy calls).result es := by
  rw [aggregate, Traced.outcome_bind, Traced.outcome_ofExcept] at h
  obtain ⟨dimensions, hdimensions, hout⟩ := bind_eq_ok h
  refine ⟨_, ⟨dimensions, hdimensions, rfl⟩, ?_⟩
  rw [Arguments.result, Arguments.typeSource?, ← Schema.pushAll_new]
  exact (Except.ok.inj hout).symm

lemma apply_layout (h : (apply engine arguments).outcome = .ok out) :
    ∃ es, Layout engine arguments es ∧ out = arguments.result es := by
  cases arguments with
  | scan input | filter input | split input =>
    rw [apply, passThrough, Conformance.outcome_carry, Schema.copy_structural] at h
    exact ⟨_, rfl, (Except.ok.inj h).symm⟩
  | logical input | comparison input =>
    refine ⟨_, rfl, ?_⟩
    rw [Arguments.result, Arguments.typeSource?, masked, ← pushAll_copy]
    exact (Except.ok.inj h).symm
  | cross left right =>
    refine ⟨_, rfl, ?_⟩
    rw [Arguments.result, Arguments.typeSource?, ← Schema.pushAll_new]
    exact (Except.ok.inj h).symm
  | select input kept => exact select_layout h
  | subset input bounds => exact subset_layout h
  | arithmetic input operator left right newMember => exact arithmetic_layout h
  | dimensionJoin left right pairs => exact dimensionJoin_layout h
  | aggregate input groupBy calls => exact aggregate_layout h
  | userDefined operator => cases h

section LookedUp

variable {input : Schema} {es : List Element} {e : Element} {name : String}

lemma requireElement_ok (h : requireElement input name = .ok e) : input.element? name = some e := by
  unfold requireElement at h
  split at h
  next found hfound =>
    obtain rfl := Except.ok.inj h
    exact hfound
  next => cases h

lemma requireDimension_ok {d : Dimension} (h : requireDimension input name = .ok d) :
    input.element? name = some (.dim d) := by
  unfold requireDimension at h
  split at h
  next found hfound =>
    obtain rfl := Except.ok.inj h
    exact Schema.element?_of_dimension? hfound
  next => cases h

def LookedUp (input : Schema) (names : List String) (es : List Element) : Prop :=
  List.Forall₂ (fun name e => input.element? name = some e) names es

lemma LookedUp.names_eq {names : List String} (h : LookedUp input names es) :
    es.map Element.name = names := by
  induction h with
  | nil => rfl
  | cons hhead _ ih => rw [List.map_cons, Schema.name_of_find? hhead, ih]

lemma LookedUp.element?_eq {names : List String} (h : LookedUp input names es) :
    ∀ e ∈ es, input.element? e.name = some e := by
  induction h with
  | nil => simp
  | cons hhead _ ih =>
    refine List.forall_mem_cons.mpr ⟨?_, ih⟩
    rwa [Schema.name_of_find? hhead]

lemma lookedUp_elements {names : List String} (h : names.mapM (requireElement input) = .ok es) :
    LookedUp input names es :=
  (mapM_forall₂ h).imp fun _ _ => requireElement_ok

lemma lookedUp_dimensions {names : List String} {ds : List Dimension}
    (h : names.mapM (requireDimension input) = .ok ds) : LookedUp input names (ds.map .dim) :=
  List.forall₂_map_right_iff.mpr ((mapM_forall₂ h).imp fun _ _ => requireDimension_ok)

lemma keepsDimensions_iff {kept : List String} :
    keepsDimensions input kept = true ↔ ∀ d ∈ input.dimensions, d.name ∈ kept := by
  simp [keepsDimensions]

lemma selected_cases {conventions : Conventions} {kept : List String}
    (h : selected conventions input kept = .ok es) :
    ∃ found, LookedUp input kept found ∧
      (keepsDimensions input kept = true ∧ es = found ∨
        keepsDimensions input kept = false ∧ ∃ cells, input.cellCount = some cells ∧
          es = .dim (cellDimension conventions cells) :: found.map fun e => .attr ⟨e.name, e.type⟩) := by
  obtain ⟨found, hfound, h⟩ := bind_eq_ok h
  refine ⟨found, lookedUp_elements hfound, ?_⟩
  split at h
  next hkeeps => exact Or.inl ⟨hkeeps, (Except.ok.inj h).symm⟩
  next hkeeps =>
    split at h
    next => cases h
    next cells hcells =>
      exact Or.inr ⟨Bool.eq_false_iff.mpr hkeeps, cells, hcells, (Except.ok.inj h).symm⟩

end LookedUp

end Inference

namespace Operation

lemma infer_layout {engine : Engine} {op : Operation} {out : Schema}
    (h : (op.infer engine).outcome = .ok out) :
    ∃ arguments es, op.arguments = .ok arguments ∧ Inference.Layout engine arguments es ∧
      out = arguments.result es := by
  rw [infer, Traced.outcome_bind, Traced.outcome_ofExcept] at h
  obtain ⟨arguments, harguments, h⟩ := bind_eq_ok h
  rw [Traced.outcome_bind] at h
  obtain ⟨result, hresult, hout⟩ := bind_eq_ok h
  obtain rfl := Except.ok.inj hout
  obtain ⟨es, hlayout, hes⟩ := Inference.apply_layout hresult
  exact ⟨arguments, es, harguments, hlayout, hes⟩

end Operation

end TensorSchema
