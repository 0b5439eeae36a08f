import Mathlib
import TensorSchema.Proofs.Inference.Results
import TensorSchema.Proofs.Plan.Invariants
import TensorSchema.Proofs.Plan.Runs

/-! The logical indices of a dimension count its grid points from zero. Operators that move or make up bounds
move the indices with them, so the two agree in every schema of a plan if they do in its sources. -/

namespace TensorSchema

namespace Dimension

def Indexed (d : Dimension) : Prop := d.firstIndex = 0 ∧ d.lastIndex = indexBefore d.length

instance : DecidablePred Indexed := fun d => inferInstanceAs (Decidable (d.firstIndex = 0 ∧ _))

variable {left right d : Dimension}

lemma implicit_indexed (name : String) (type : DataType) (lower upper spacing : Float) :
    (implicit name type lower upper spacing).Indexed :=
  ⟨rfl, rfl⟩

lemma Indexed.rename (h : d.Indexed) (name : String) : (d.rename name).Indexed := h

lemma intersect_indexed (h : left.intersect right = .ok d) : d.Indexed := by
  unfold intersect at h
  split_ifs at h
  split at h
  next => cases h
  next =>
    split at h
    next => cases h
    next =>
      split_ifs at h
      obtain rfl := Except.ok.inj h
      exact implicit_indexed ..

end Dimension

def Element.Indexed : Element → Prop
  | dim d => d.Indexed
  | attr _ => True

lemma Element.Indexed.rename {e : Element} (h : e.Indexed) (name : String) :
    (e.rename name).Indexed := by
  cases e with
  | dim d => exact Dimension.Indexed.rename h name
  | attr a => trivial

namespace Schema

def Indexed (s : Schema) : Prop := ∀ d ∈ s.dimensions, d.Indexed

instance : DecidablePred Indexed := fun s =>
  inferInstanceAs (Decidable (∀ d ∈ s.dimensions, d.Indexed))

variable {s : Schema} {es : List Element} {d : Dimension}

lemma indexed_iff : s.Indexed ↔ ∀ e ∈ s.elements, e.Indexed := by
  constructor
  · intro h e he
    cases e with
    | dim d => exact h d (mem_dimensions.mpr he)
    | attr a => trivial
  · intro h d hd
    exact h _ (mem_dimensions.mp hd)

lemma indexed_distinct (h : ∀ e ∈ es, e.Indexed) : ∀ e ∈ distinct es, e.Indexed := by
  intro e he
  obtain ⟨f, hf, name, rfl⟩ := mem_distinct he
  exact (h f hf).rename name

end Schema

def Engine.IntersectsGrids (engine : Engine) : Prop :=
  ∀ left right, engine.intersect left right = (left.intersect right).mapError .invalid

namespace Inference

open Schema (indexed_iff indexed_distinct)

variable {engine : Engine} {arguments : Arguments} {es fs : List Element} {d : Dimension} {b : Bound}
  {input right : Schema} {pairs : List (String × String)}

lemma narrowGrid_indexed {narrowed : Dimension} (h : narrowGrid d b = .ok narrowed) :
    narrowed.Indexed := by
  unfold narrowGrid at h
  split_ifs at h
  dsimp only at h
  split_ifs at h
  split at h
  next => cases h
  next length hlength =>
    obtain rfl := Except.ok.inj h
    refine ⟨rfl, ?_⟩
    simp only [Dimension.length, Dimension.length?, hlength, Option.getD_some]

lemma NarrowedBy.indexed {e f : Element} (h : NarrowedBy b e f) (he : e.Indexed) : f.Indexed := by
  cases h with
  | same => exact he
  | grid _ hgrid => exact narrowGrid_indexed hgrid

lemma narrow_indexed (h : List.Forall₂ (NarrowedBy b) es fs) (hes : ∀ e ∈ es, e.Indexed) :
    ∀ f ∈ fs, f.Indexed := by
  induction h with
  | nil => exact hes
  | cons hhead _ ih =>
    obtain ⟨he, hrest⟩ := List.forall_mem_cons.mp hes
    exact List.forall_mem_cons.mpr ⟨hhead.indexed he, ih hrest⟩

lemma narrowAll_indexed {bounds : List Bound} (h : (narrowAll bounds es).outcome = .ok fs)
    (hes : ∀ e ∈ es, e.Indexed) : ∀ f ∈ fs, f.Indexed := by
  induction bounds generalizing es with
  | nil =>
    obtain rfl := Except.ok.inj h
    exact hes
  | cons b rest ih =>
    rw [narrowAll, Traced.outcome_bind] at h
    obtain ⟨narrowed, hnarrowed, hrest⟩ := bind_eq_ok h
    exact ih hrest (narrow_indexed (narrow_ok hnarrowed) hes)

lemma LookedUp.indexed {names : List String} (h : LookedUp input names es) (hinput : input.Indexed) :
    ∀ e ∈ es, e.Indexed := by
  intro e he
  exact indexed_iff.mp hinput e (List.mem_of_find?_eq_some (h.element?_eq e he))

lemma selected_indexed {conventions : Conventions} {kept : List String}
    (h : selected conventions input kept = .ok es) (hinput : input.Indexed) : ∀ e ∈ es, e.Indexed := by
  obtain ⟨found, hfound, ⟨-, rfl⟩ | ⟨-, cells, -, rfl⟩⟩ := selected_cases h
  · exact hfound.indexed hinput
  · intro e he
    rcases List.mem_cons.mp he with rfl | he
    · exact Dimension.implicit_indexed ..
    · obtain ⟨f, _, rfl⟩ := List.mem_map.mp he
      trivial

lemma groups_indexed {conventions : Conventions} {groupBy : List String} {dimensions : List Dimension}
    (h : groups conventions input groupBy = .ok dimensions) (hinput : input.Indexed) :
    ∀ d ∈ dimensions, d.Indexed := by
  obtain ⟨ds, hds, h⟩ := bind_eq_ok h
  obtain rfl := Except.ok.inj h
  intro d hd
  split at hd
  next =>
    rw [List.mem_singleton.mp hd]
    exact Dimension.implicit_indexed ..
  next => exact (lookedUp_dimensions hds).indexed hinput (.dim d) (List.mem_map_of_mem hd)

lemma joinDimension_indexed {joined : Dimension} (hengine : engine.IntersectsGrids)
    (h : (joinDimension engine right pairs d).outcome = .ok joined) (hd : d.Indexed) :
    joined.Indexed := by
  unfold joinDimension at h
  split at h
  next =>
    obtain rfl := Except.ok.inj h
    exact hd
  next r _ =>
    rw [Traced.outcome_bind] at h
    obtain ⟨other, _, h⟩ := bind_eq_ok h
    rw [Traced.outcome_bind, Traced.outcome_ofExcept, hengine] at h
    obtain ⟨shared, hshared, h⟩ := bind_eq_ok h
    obtain rfl := Except.ok.inj h
    exact Dimension.intersect_indexed (mapError_eq_ok hshared)

lemma joinDimensions_indexed {ds : List Dimension} (hengine : engine.IntersectsGrids)
    (h : (joinDimensions engine right pairs ds).outcome = .ok es) (hds : ∀ d ∈ ds, d.Indexed) :
    ∀ e ∈ es, e.Indexed := by
  induction ds generalizing es with
  | nil =>
    obtain rfl := Except.ok.inj h
    simp
  | cons d rest ih =>
    obtain ⟨hd, hrest⟩ := List.forall_mem_cons.mp hds
    rw [joinDimensions, Traced.outcome_bind] at h
    obtain ⟨joined, hjoined, h⟩ := bind_eq_ok h
    rw [Traced.outcome_bind] at h
    obtain ⟨others, hothers, h⟩ := bind_eq_ok h
    obtain rfl := Except.ok.inj h
    exact List.forall_mem_cons.mpr ⟨(joinDimension_indexed hengine hjoined hd).rename _, ih hothers hrest⟩

lemma prefixed_indexed (mark : String) (hes : ∀ e ∈ es, e.Indexed) :
    ∀ e ∈ es.map (prefixed mark), e.Indexed := by
  intro e he
  obtain ⟨f, hf, rfl⟩ := List.mem_map.mp he
  exact (hes f hf).rename _

lemma attributes_indexed (attributes : List Attribute) :
    ∀ e ∈ attributes.map Element.attr, e.Indexed := by
  intro e he
  obtain ⟨a, _, rfl⟩ := List.mem_map.mp he
  trivial

lemma dimensions_indexed {ds : List Dimension} (h : ∀ d ∈ ds, d.Indexed) :
    ∀ e ∈ ds.map Element.dim, e.Indexed := by
  intro e he
  obtain ⟨d, hd, rfl⟩ := List.mem_map.mp he
  exact h d hd

lemma append_indexed (hes : ∀ e ∈ es, e.Indexed) (hfs : ∀ e ∈ fs, e.Indexed) :
    ∀ e ∈ es ++ fs, e.Indexed :=
  List.forall_mem_append.mpr ⟨hes, hfs⟩

lemma dimensionsFirst_indexed (hinput : input.Indexed) : ∀ e ∈ dimensionsFirst input, e.Indexed :=
  append_indexed (dimensions_indexed hinput) (attributes_indexed _)

lemma joinedElements_indexed {conventions : Conventions} {left : Schema} {joined : List Element}
    (hjoined : ∀ e ∈ joined, e.Indexed) (hright : right.Indexed) :
    ∀ e ∈ joinedElements conventions left right pairs joined, e.Indexed := by
  refine append_indexed (append_indexed hjoined (prefixed_indexed _ ?_))
    (prefixed_indexed _ (attributes_indexed _))
  refine append_indexed (dimensions_indexed ?_) (attributes_indexed _)
  intro d hd
  exact hright d (List.mem_of_mem_filter hd)

lemma Layout.indexed (hengine : engine.IntersectsGrids) (h : Layout engine arguments es)
    (hinputs : ∀ s ∈ arguments.inputs, s.Indexed) : ∀ e ∈ es, e.Indexed := by
  cases arguments with
  | scan input | filter input | split input =>
    have hinput := indexed_iff.mp (hinputs input (by simp [Arguments.inputs]))
    obtain rfl := h
    exact indexed_distinct hinput
  | logical input | comparison input =>
    have hinput := indexed_iff.mp (hinputs input (by simp [Arguments.inputs]))
    obtain rfl := h
    exact indexed_distinct (append_indexed hinput (attributes_indexed [_, _]))
  | arithmetic input =>
    have hinput := indexed_iff.mp (hinputs input (by simp [Arguments.inputs]))
    obtain ⟨_, _, rfl⟩ := h
    exact indexed_distinct (append_indexed hinput (attributes_indexed [_]))
  | select input kept =>
    obtain ⟨chosen, hchosen, rfl⟩ := h
    exact indexed_distinct (selected_indexed hchosen (hinputs input (by simp [Arguments.inputs])))
  | subset input bounds =>
    have hinput := indexed_iff.mp (hinputs input (by simp [Arguments.inputs]))
    exact narrowAll_indexed h (indexed_distinct hinput)
  | cross left right =>
    obtain ⟨hleft, hright⟩ : left.Indexed ∧ right.Indexed := by simpa [Arguments.inputs] using hinputs
    obtain rfl := h
    exact indexed_distinct (append_indexed (prefixed_indexed _ (dimensionsFirst_indexed hright))
      (dimensionsFirst_indexed hleft))
  | dimensionJoin left right pairs =>
    obtain ⟨hleft, hright⟩ : left.Indexed ∧ right.Indexed := by simpa [Arguments.inputs] using hinputs
    obtain ⟨_, joined, hjoined, rfl⟩ := h
    exact indexed_distinct
      (joinedElements_indexed (joinDimensions_indexed hengine hjoined hleft) hright)
  | aggregate input groupBy calls =>
    obtain ⟨dimensions, hdimensions, rfl⟩ := h
    have hgroups := groups_indexed hdimensions (hinputs input (by simp [Arguments.inputs]))
    refine indexed_distinct (append_indexed (dimensions_indexed hgroups) ?_)
    intro e he
    obtain ⟨call, _, rfl⟩ := List.mem_map.mp he
    trivial
  | userDefined => exact h.elim

end Inference

lemma preserves_indexed {engine : Engine} (hengine : engine.IntersectsGrids) :
    engine.Preserves Schema.Indexed := by
  intro op out name hparameters h
  obtain ⟨arguments, es, harguments, hlayout, rfl⟩ := Operation.infer_layout h
  apply Schema.indexed_iff.mpr
  intro e he
  have hes : e ∈ (arguments.result es).elements := he
  rw [Arguments.elements_result] at hes
  refine hlayout.indexed hengine ?_ e hes
  intro s hs
  obtain ⟨p, hp, hvalue⟩ := (Operation.arguments_ok harguments).2.2 s hs
  exact hparameters p hp s hvalue

theorem infer_indexed (engine : Engine) (hengine : engine.IntersectsGrids) (p : Plan) (r : InferredPlan)
    (hsources : ∀ s, Node.source s ∈ p.nodes → s.Indexed) (h : (p.infer engine).outcome = .ok r) :
    ∀ id s, r.get? id = some s → s.Indexed :=
  Plan.infer_preserves (preserves_indexed hengine) hsources h

def coarse : Schema := ((Schema.new "coarse").push (.dim (.implicit "x" .int 0 30 3))).1

def fine : Schema :=
  (Schema.new "fine").pushAll [.dim (.implicit "x" .int 6 60 6), .attr ⟨"v", .float⟩]

def resampled : List Plan.Call :=
  [.addSource "coarse" coarse,
   .addSource "fine" fine,
   .addOperator "part" .subset
     [⟨"inputTar", .input ⟨0⟩⟩, ⟨"dim0", .text "x"⟩, ⟨"lb0", .number 3⟩, ⟨"ub0", .number 25⟩],
   .addOperator "shared" .dimensionJoin
     [⟨"operand0", .input ⟨2⟩⟩, ⟨"operand1", .input ⟨1⟩⟩, ⟨"dim0", .text "x"⟩, ⟨"dim1", .text "x"⟩],
   .addOperator "values" .select [⟨"inputTar", .input ⟨3⟩⟩, ⟨"operand0", .text "right_v"⟩],
   .addOperator "total" .aggregate [⟨"inputTar", .input ⟨4⟩⟩, ⟨"operand2", .text "sum"⟩]]

theorem resampled_indexed : coarse.Indexed ∧ fine.Indexed ∧
    ∃ r shared, ((Plan.built resampled).infer ({} : Config)).outcome = .ok r ∧
      r.get? ⟨3⟩ = some shared ∧
      shared.dimensions = [.implicit "left_x" .int 6 24 6] ∧ shared.Indexed := by
  have hcoarse : coarse.Indexed := by decide +kernel
  have hfine : fine.Indexed := by decide +kernel
  refine ⟨hcoarse, hfine, ?_⟩
  have hsources : ∀ s, Node.source s ∈ (Plan.built resampled).nodes → s.Indexed := by
    have hnodes : ∀ node ∈ (Plan.built resampled).nodes, node.inputs = [] →
        node = .source coarse ∨ node = .source fine := by decide +kernel
    intro s hs
    rcases hnodes _ hs rfl with h | h
    · exact Node.source.inj h ▸ hcoarse
    · exact Node.source.inj h ▸ hfine
  let shared : Schema :=
    ⟨"shared", [.dim (.implicit "left_x" .int 6 24 6), .attr ⟨"right_v", .float⟩], none, ∅⟩
  have hshared : (((Plan.built resampled).infer ({} : Config)).outcome.toOption.bind
      fun r => r.get? ⟨3⟩) = some shared := by decide +kernel
  obtain ⟨r, hr, hget⟩ := Option.bind_eq_some_iff.mp hshared
  have hok : ((Plan.built resampled).infer ({} : Config)).outcome = .ok r := by
    cases h : ((Plan.built resampled).infer ({} : Config)).outcome with
    | error e => simp [h, Except.toOption] at hr
    | ok known => simpa [h, Except.toOption] using hr
  exact ⟨r, shared, hok, hget, rfl, infer_indexed _ (fun _ _ => rfl) _ r hsources hok _ _ hget⟩

end TensorSchema
