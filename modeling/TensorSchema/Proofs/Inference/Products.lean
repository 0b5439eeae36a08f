import Mathlib
import TensorSchema.Proofs.Inference.JoinedDimensions
import TensorSchema.Proofs.Schema.Cells

namespace TensorSchema.Inference

open Schema

variable {conventions : Conventions} {engine : Engine} {left right : Schema} {mark name : String}
  {es : List Element}

lemma dimensionsFirst_perm (s : Schema) : (dimensionsFirst s).Perm s.elements := by
  obtain ⟨_, es, _, _⟩ := s
  simp only [dimensionsFirst, dimensions, attributes]
  induction es with
  | nil => exact .nil
  | cons e es ih =>
    cases e with
    | dim d => exact ih.cons (.dim d)
    | attr a => exact List.perm_middle.trans (ih.cons (.attr a))

lemma nodup_dimensionsFirst {s : Schema} (h : s.names.Nodup) :
    ((dimensionsFirst s).map Element.name).Nodup :=
  ((dimensionsFirst_perm s).map Element.name).nodup_iff.mpr h

def StartsWith (mark name : String) : Prop := ∃ rest, name = mark ++ rest

lemma StartsWith.duplicateName (h : StartsWith mark name) (k : ℕ) :
    StartsWith mark (duplicateName name k) := by
  obtain ⟨rest, rfl⟩ := h
  exact ⟨_, String.append_assoc⟩

lemma startsWith_prefixed {e : Element} (h : e ∈ es.map (prefixed mark)) : StartsWith mark e.name := by
  obtain ⟨f, _, rfl⟩ := List.mem_map.mp h
  exact ⟨f.name, Element.name_rename _ _⟩

lemma nodup_prefixed (h : (es.map Element.name).Nodup) :
    ((es.map (prefixed mark)).map Element.name).Nodup := by
  have hnames : (es.map (prefixed mark)).map Element.name = (es.map Element.name).map (mark ++ ·) := by
    simp [prefixed]
  rw [hnames]
  exact h.map fun _ _ => (String.append_right_inj mark).mp

lemma outcome_cross (conventions : Conventions) (left right : Schema) :
    (cross conventions left right).outcome =
      .ok (plain (distinct (crossElements conventions left right))) := by
  rw [cross, pushAll_new]
  rfl

/-- The right operand comes first, under its mark. A left element is renamed only if its own name starts with
that mark. -/
theorem cross_keeps_elements (conventions : Conventions) (hleft : left.names.Nodup)
    (hright : right.names.Nodup) :
    ∃ out rest, (cross conventions left right).outcome = .ok out ∧
      out.elements =
        right.dimensions.map (fun d => .dim (d.rename (conventions.rightPrefix ++ d.name))) ++
        right.attributes.map (fun a => .attr (a.rename (conventions.rightPrefix ++ a.name))) ++ rest ∧
      List.Forall₂ (StoredPast (StartsWith conventions.rightPrefix))
        (left.dimensions.map .dim ++ left.attributes.map .attr) rest ∧
      out.elements.length = right.elements.length + left.elements.length := by
  have hmarks : ∀ name k, StartsWith conventions.rightPrefix name →
      StartsWith conventions.rightPrefix (duplicateName name k) := fun _ k h => h.duplicateName k
  obtain ⟨rest, hrest, hstored⟩ := distinct_past hmarks
    (nodup_prefixed (nodup_dimensionsFirst hright)) (fun _ => startsWith_prefixed)
    (nodup_dimensionsFirst hleft)
  refine ⟨_, rest, outcome_cross conventions left right, ?_, hstored, ?_⟩
  · change distinct (_ ++ _) = _
    rw [hrest, dimensionsFirst, List.map_append, List.map_map, List.map_map]
    rfl
  · change (distinct (_ ++ _)).length = _
    rw [hrest, List.length_append, List.length_map, ← hstored.length_eq,
      (dimensionsFirst_perm right).length_eq, (dimensionsFirst_perm left).length_eq]

def renamings : Schema :=
  plain [.attr ⟨"right_t", .float⟩, .dim (.implicit "right_t-new" .int 0 3 1), .attr ⟨"b", .int⟩]

theorem renamings_cross : renamings.names.Nodup ∧ clock.names.Nodup ∧
    ∃ out rest, (cross {} renamings clock).outcome = .ok out ∧
      out.elements = .dim (.implicit "right_t" .long 0 10 1) :: rest ∧
      List.Forall₂ (StoredPast (StartsWith "right_"))
        [.dim (.implicit "right_t-new" .int 0 3 1), .attr ⟨"right_t", .float⟩, .attr ⟨"b", .int⟩] rest ∧
      out.names = ["right_t", "right_t-new", "right_t-new-new", "b"] := by
  have hleft : renamings.names.Nodup := by decide
  have hright : clock.names.Nodup := by decide
  obtain ⟨out, rest, hout, helements, hrest, -⟩ := cross_keeps_elements {} hleft hright
  have hcross : (cross {} renamings clock).outcome = .ok (plain [.dim (.implicit "right_t" .long 0 10 1),
      .dim (.implicit "right_t-new" .int 0 3 1), .attr ⟨"right_t-new-new", .float⟩, .attr ⟨"b", .int⟩]) := by
    decide
  obtain rfl := Except.ok.inj (hout.symm.trans hcross)
  exact ⟨hleft, hright, _, rest, hout, helements, hrest, by decide⟩

section Cells

lemma lengths_prefixed (mark : String) (es : List Element) :
    (plain (es.map (prefixed mark))).dimensions.map Dimension.length? =
      (plain es).dimensions.map Dimension.length? := by
  simp only [dimensions, plain]
  induction es with
  | nil => rfl
  | cons e es ih =>
    cases e with
    | dim d => exact congrArg (d.length? :: ·) ih
    | attr a => exact ih

lemma joinDimensions_unpaired (ds : List Dimension) :
    (joinDimensions engine right [] ds).outcome =
      .ok ((ds.map .dim).map (prefixed engine.conventions.leftPrefix)) := by
  induction ds with
  | nil => rfl
  | cons d rest ih =>
    rw [joinDimensions, Traced.outcome_bind]
    change ((joinDimensions engine right [] rest >>= _).outcome) = _
    rw [Traced.outcome_bind, ih]
    rfl

lemma outcome_dimensionJoin_nil (engine : Engine) (left right : Schema) :
    (dimensionJoin engine left right []).outcome =
      .ok (plain (distinct (joinedElements engine.conventions left right []
        ((left.dimensions.map .dim).map (prefixed engine.conventions.leftPrefix))))) := by
  rw [dimensionJoin, Traced.outcome_bind]
  change (joinDimensions engine right [] left.dimensions >>= _).outcome = _
  rw [Traced.outcome_bind, joinDimensions_unpaired, ← pushAll_new]
  rfl

lemma dimensions_dimensionsFirst (s : Schema) : (plain (dimensionsFirst s)).dimensions = s.dimensions := by
  rw [dimensionsFirst, dimensions_append, dimensions_map_dim, dimensions_map_attr, List.append_nil]

lemma lengths_cross : (plain (crossElements conventions left right)).dimensions.map Dimension.length? =
    (right.dimensions ++ left.dimensions).map Dimension.length? := by
  rw [crossElements, dimensions_append, List.map_append, lengths_prefixed, dimensions_dimensionsFirst,
    dimensions_dimensionsFirst, List.map_append]

lemma lengths_joined :
    (plain (joinedElements conventions left right []
      ((left.dimensions.map .dim).map (prefixed mark)))).dimensions.map Dimension.length? =
    (left.dimensions ++ right.dimensions).map Dimension.length? := by
  have hright : (unpaired right []).map Element.dim ++ right.attributes.map .attr = dimensionsFirst right := by
    simp [unpaired, dimensionsFirst]
  rw [joinedElements, hright, dimensions_append, dimensions_append]
  simp only [List.map_append, lengths_prefixed, dimensions_map_dim, dimensions_map_attr,
    dimensions_dimensionsFirst, List.map_nil, List.append_nil]

lemma cellCount_distinct {ds : List Dimension}
    (h : (plain es).dimensions.map Dimension.length? = ds.map Dimension.length?) :
    (plain (distinct es)).cellCount = cellProduct 1 ds :=
  cellProduct_congr ((lengths_distinct es).trans h)

theorem cells_multiply (engine : Engine) (hleft : ∀ d ∈ left.dimensions, d.length? = none ∨ d.Populated)
    (hright : ∀ d ∈ right.dimensions, d.length? = none ∨ d.Populated) :
    (∃ out, (cross engine.conventions left right).outcome = .ok out ∧
      out.cellCount = checkedProduct left.cellCount right.cellCount) ∧
    ∃ out, (dimensionJoin engine left right []).outcome = .ok out ∧
      out.cellCount = checkedProduct left.cellCount right.cellCount := by
  constructor
  · refine ⟨_, outcome_cross engine.conventions left right, ?_⟩
    rw [cellCount_distinct lengths_cross, cellProduct_append hright hleft, checkedProduct_comm]
    rfl
  · refine ⟨_, outcome_dimensionJoin_nil engine left right, ?_⟩
    rw [cellCount_distinct lengths_joined, cellProduct_append hleft hright]
    rfl

def line (upper : Float) : Schema := plain [.dim (.implicit "x" .long 1 upper 1)]

theorem lines_multiply :
    (∀ upper ∈ [4294967296, 2147483647, 2147483648, 1 / 0], ∀ d ∈ (line upper).dimensions,
      d.length? = none ∨ d.Populated) ∧
    (∃ out, (cross {} (line 4294967296) (line 2147483647)).outcome = .ok out ∧
      out.cellCount = some 9223372032559808512) ∧
    (∃ out, (dimensionJoin ({} : Config) (line 4294967296) (line 2147483648) []).outcome = .ok out ∧
      out.cellCount = none) ∧
    ∃ out, (dimensionJoin ({} : Config) (line (1 / 0)) (line 2147483648) []).outcome = .ok out ∧
      out.cellCount = none := by
  have hlengths : ∀ upper ∈ [4294967296, 2147483647, 2147483648, 1 / 0],
      ∀ d ∈ (line upper).dimensions, d.length? = none ∨ d.Populated := by
    decide
  obtain ⟨⟨below, hbelow, hfits⟩, -⟩ := cells_multiply ({} : Config)
    (hlengths 4294967296 (by simp)) (hlengths 2147483647 (by simp))
  obtain ⟨-, limit, hlimit, hoverflows⟩ := cells_multiply ({} : Config)
    (hlengths 4294967296 (by simp)) (hlengths 2147483648 (by simp))
  obtain ⟨-, endless, hendless, hunknown⟩ := cells_multiply ({} : Config)
    (hlengths (1 / 0) (by simp)) (hlengths 2147483648 (by simp))
  exact ⟨hlengths, ⟨below, hbelow, hfits.trans (by decide)⟩,
    ⟨limit, hlimit, hoverflows.trans (by decide)⟩,
    endless, hendless, hunknown.trans (by decide)⟩

end Cells

end TensorSchema.Inference
