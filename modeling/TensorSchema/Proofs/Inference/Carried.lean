import Mathlib
import TensorSchema.Proofs.Inference.Roles

/-! Conformance goes by names. A role keeps its element, and with it the data type, unless another element
of the result gets the name first. -/

namespace TensorSchema

inductive Element.Carried : Element → Element → Prop
  | narrowed {e f : Element} : e.Narrowed f → Carried e f
  | flattened (e : Element) : Carried e (.attr ⟨e.name, e.type⟩)

lemma Element.Carried.type_eq {e f : Element} (h : e.Carried f) : f.type = e.type := by
  cases h with
  | narrowed hnarrowed => exact hnarrowed.type_eq
  | flattened => rfl

namespace Arguments

def asked (conventions : Conventions) : Arguments → List String
  | .select input kept =>
    if Inference.keepsDimensions input kept then kept else conventions.syntheticDimension :: kept
  | .aggregate _ groupBy calls =>
    (if groupBy.isEmpty then [conventions.syntheticDimension] else groupBy) ++
      calls.map AggregateCall.output
  | _ => []

def added (conventions : Conventions) : Arguments → List String
  | .select input kept =>
    if Inference.keepsDimensions input kept then [] else [conventions.syntheticDimension]
  | .aggregate _ groupBy calls =>
    (if groupBy.isEmpty then [conventions.syntheticDimension] else []) ++
      (calls.map AggregateCall.output).filter (· ∉ groupBy)
  | _ => []

/-- Another element gets the name: an added one that asks for it first, or one that is renamed to it
before any asks for it. -/
def Captures (conventions : Conventions) (arguments : Arguments) (name : String) : Prop :=
  name ∈ arguments.added conventions ∨
    name ∈ Schema.storedNames ((arguments.asked conventions).takeWhile (· ≠ name))

lemma Captures.kind {conventions : Conventions} {arguments : Arguments} {name : String}
    (h : arguments.Captures conventions name) :
    arguments.kind = .select ∨ arguments.kind = .aggregate := by
  cases arguments with
  | select => exact Or.inl rfl
  | aggregate => exact Or.inr rfl
  | scan | filter | split | subset | logical | comparison | arithmetic | cross | dimensionJoin
  | userDefined =>
    rcases h with hadded | hrenamed
    · cases hadded
    · cases hrenamed

end Arguments

namespace Inference

open Schema (distinct plain)

variable {engine : Engine} {conventions : Conventions} {input : Schema} {arguments : Arguments}
  {es : List Element} {e f : Element} {name : String}

structure Pushes (conventions : Conventions) (arguments : Arguments) (input : Schema)
    (es : List Element) : Prop where
  names_eq : es.map Element.name = arguments.asked conventions
  carried : ∀ name f, es.find? (fun e => e.name = name) = some f → name ∉ arguments.added conventions →
    ∃ e, input.element? name = some e ∧ e.Carried f

lemma selected_pushes {kept : List String} (h : selected conventions input kept = .ok es) :
    Pushes conventions (.select input kept) input es := by
  obtain ⟨found, hlooked, ⟨hkeeps, rfl⟩ | ⟨hkeeps, cells, -, rfl⟩⟩ := selected_cases h
  · refine ⟨by simp [Arguments.asked, hkeeps, hlooked.names_eq], ?_⟩
    intro name f hfound _
    obtain rfl := Schema.name_of_find? hfound
    have hf := hlooked.element?_eq f (List.mem_of_find?_eq_some hfound)
    exact ⟨f, hf, .narrowed (.same f)⟩
  · rw [Bool.eq_false_iff] at hkeeps
    constructor
    · rw [Arguments.asked, if_neg hkeeps, List.map_cons, List.map_map]
      exact congrArg _ hlooked.names_eq
    · intro name f hfound hadded
      obtain rfl := Schema.name_of_find? hfound
      rw [Arguments.added, if_neg hkeeps, List.mem_singleton] at hadded
      rcases List.mem_cons.mp (List.mem_of_find?_eq_some hfound) with rfl | hf
      · exact (hadded rfl).elim
      · obtain ⟨e, he, rfl⟩ := List.mem_map.mp hf
        exact ⟨e, hlooked.element?_eq e he, .flattened e⟩

lemma names_outputs (calls : List AggregateCall) :
    (outputs calls).map Element.name = calls.map AggregateCall.output := by
  rw [outputs, List.map_map]
  rfl

lemma mem_groupBy {groupBy : List String} {calls : List AggregateCall}
    (hasked : name ∈ (Arguments.aggregate input groupBy calls).asked conventions)
    (hadded : name ∉ (Arguments.aggregate input groupBy calls).added conventions) :
    name ∈ groupBy := by
  by_contra hgroup
  apply hadded
  rw [Arguments.asked, List.mem_append] at hasked
  rw [Arguments.added, List.mem_append]
  rcases hasked with hdimension | houtput
  · left
    split at hdimension
    next hempty => rwa [if_pos hempty]
    next => exact (hgroup hdimension).elim
  · right
    rw [List.mem_filter]
    exact ⟨houtput, decide_eq_true hgroup⟩

lemma groups_pushes {groupBy : List String} {dimensions : List Dimension}
    (h : groups conventions input groupBy = .ok dimensions) (calls : List AggregateCall) :
    Pushes conventions (.aggregate input groupBy calls) input
      (dimensions.map .dim ++ outputs calls) := by
  obtain ⟨ds, hds, h⟩ := bind_eq_ok h
  obtain rfl := Except.ok.inj h
  have hlooked := lookedUp_dimensions hds
  have hnames : ((if groupBy.isEmpty then [pointDimension conventions] else ds).map Element.dim ++
      outputs calls).map Element.name =
      (Arguments.aggregate input groupBy calls).asked conventions := by
    rw [List.map_append, names_outputs, Arguments.asked]
    split
    next => rfl
    next => rw [hlooked.names_eq]
  refine ⟨hnames, ?_⟩
  intro name f hfound hadded
  obtain rfl := Schema.name_of_find? hfound
  have hasked := List.mem_map_of_mem (f := Element.name) (List.mem_of_find?_eq_some hfound)
  rw [hnames] at hasked
  have hgroup := mem_groupBy hasked hadded
  have hempty : ¬ groupBy.isEmpty = true := by
    rw [List.isEmpty_iff]
    exact List.ne_nil_of_mem hgroup
  rw [if_neg hempty, List.find?_append] at hfound
  -- the dimensions stand before the outputs, so the first element with the name is one of them
  cases hfirst : (ds.map Element.dim).find? (fun e => e.name = f.name) with
  | none =>
    rw [← hlooked.names_eq] at hgroup
    exact (Schema.find?_eq_none_iff.mp hfirst hgroup).elim
  | some first =>
    rw [hfirst] at hfound
    obtain rfl := Option.some.inj hfound
    exact ⟨first, hlooked.element?_eq first (List.mem_of_find?_eq_some hfirst), .narrowed (.same first)⟩

lemma Pushes.carries (h : Pushes conventions arguments input es)
    (hfree : ¬ arguments.Captures conventions name) (hname : name ∈ (distinct es).map Element.name)
    (he : input.element? name = some e) :
    ∃ f, (plain (distinct es)).element? name = some f ∧ e.Carried f := by
  rw [Arguments.Captures, not_or, ← h.names_eq] at hfree
  have hfind : (plain (distinct es)).element? name = es.find? (fun e => e.name = name) :=
    Schema.find?_distinct hfree.2
  cases hfound : es.find? (fun e => e.name = name) with
  | none => exact (Schema.find?_eq_none_iff.mp (hfind.trans hfound) hname).elim
  | some f =>
    obtain ⟨e', he', hcarried⟩ := h.carried name f hfound hfree.1
    obtain rfl := Option.some.inj (he.symm.trans he')
    exact ⟨f, hfind.trans hfound, hcarried⟩

lemma Layout.carried (h : Layout engine arguments es) (hsource : arguments.typeSource? = some input)
    (hnodup : input.names.Nodup) (hfree : ¬ arguments.Captures engine.conventions name)
    (hname : name ∈ es.map Element.name) (he : input.element? name = some e) :
    ∃ f, (plain es).element? name = some f ∧ e.Carried f := by
  cases arguments with
  -- distinct names are stored as they are
  | scan | filter | split =>
    obtain rfl := Option.some.inj hsource
    obtain rfl := h
    rw [Schema.distinct_of_nodup hnodup]
    exact ⟨e, he, .narrowed (.same e)⟩
  | select =>
    obtain rfl := Option.some.inj hsource
    obtain ⟨chosen, hchosen, rfl⟩ := h
    exact (selected_pushes hchosen).carries hfree hname he
  | subset =>
    obtain rfl := Option.some.inj hsource
    rw [Layout, Schema.distinct_of_nodup hnodup] at h
    obtain ⟨f, hf, hnarrowed⟩ := find?_narrowed (narrowAll_ok h) he
    exact ⟨f, hf, .narrowed hnarrowed⟩
  | arithmetic =>
    obtain rfl := Option.some.inj hsource
    obtain ⟨computed, _, rfl⟩ := h
    rw [Schema.distinct_append_one (Schema.distinct_of_nodup hnodup)]
    exact ⟨e, (List.prefix_append _ _).find?_eq_some he, .narrowed (.same e)⟩
  | aggregate input groupBy calls =>
    obtain rfl := Option.some.inj hsource
    obtain ⟨dimensions, hdimensions, rfl⟩ := h
    exact (groups_pushes hdimensions calls).carries hfree hname he
  | logical | comparison | cross | dimensionJoin | userDefined => cases hsource

end Inference

theorem role_carried (engine : Engine) (op : Operation) (out : Schema) (role element : String)
    (hinput : ∀ input, op.inputSchema = .ok input → input.names.Nodup ∧ input.WellBound)
    (h : (op.infer engine).outcome = .ok out) (hbound : out.roles.find? role = some element)
    (hfree : op.kind = .select ∨ op.kind = .aggregate →
      ∀ arguments, op.arguments = .ok arguments → ¬ arguments.Captures engine.conventions element) :
    ∃ input e f, op.inputSchema = .ok input ∧ input.implementation? role = some e ∧
      out.implementation? role = some f ∧ e.Carried f ∧ f.type = e.type := by
  obtain ⟨arguments, es, harguments, hlayout, rfl⟩ := Operation.infer_layout h
  have hfree : ¬ arguments.Captures engine.conventions element := by
    intro hcaptures
    refine hfree ?_ arguments harguments hcaptures
    rw [← (Operation.arguments_ok harguments).1]
    exact hcaptures.kind
  rcases Operation.typeSource?_arguments harguments with ⟨_, input, hop, hsource⟩ | ⟨_, hsource⟩
  · obtain ⟨hnodup, hwellBound⟩ := hinput input hop
    have hresult : arguments.result es = Conformance.propagate input (.plain es) := by
      rw [Arguments.result, hsource]
    obtain ⟨_, hbefore, hname⟩ := (Conformance.carries_propagate input es).bound (hresult ▸ hbound)
    rw [Conformance.names_propagate] at hname
    obtain ⟨e, he⟩ := Option.isSome_iff_exists.mp
      (Schema.hasElement_iff.mpr (hwellBound role element hbefore).2)
    obtain ⟨f, hf, hcarried⟩ := hlayout.carried hsource hnodup hfree hname he
    refine ⟨input, e, f, hop, ?_, ?_, hcarried, hcarried.type_eq⟩
    · rw [Schema.implementation?, hbefore]
      exact he
    · rw [Schema.implementation?, hbound, Option.bind_some, Schema.element?, Arguments.elements_result]
      exact hf
  · rw [Arguments.result, hsource] at hbound
    cases hbound

def marker : NominalType := (NominalType.new "marker").withRole "value" false

def labelled (name : String) (elements : List Element) (element : String) : Schema :=
  (Schema.new name).edited (elements.map .push ++ [.withType marker, .bindRole "value" element])

lemma labelled_valid (name : String) (elements : List Element) (element : String) :
    (labelled name elements element).names.Nodup ∧ (labelled name elements element).WellBound := by
  constructor
  · exact Schema.nodup_edited (s := .new name) List.nodup_nil _
  · exact ((Schema.Reached.new name).edited _).wellBound

def steps : Element := .dim (.implicit "x" .int 0 3 1)

def grid : Schema :=
  labelled "grid" [steps, .dim (.implicit "y" .int 0 1 1), .attr ⟨"v", .float⟩] "x"

def positions : Operation := .ofKind .select
  [⟨"inputTar", .schema grid⟩, ⟨"operand0", .text "x"⟩, ⟨"operand1", .text "v"⟩]

theorem positions_carried : grid.names.Nodup ∧ grid.WellBound ∧
    ∃ out f, (positions.infer ({} : Config)).outcome = .ok out ∧
      out.roles.find? "value" = some "x" ∧ out.implementation? "value" = some f ∧
      f = .attr ⟨"x", .int⟩ ∧ steps.Carried f ∧ f.type = steps.type := by
  let out := labelled "" [.dim (.implicit "i" .long 1 8 1), .attr ⟨"x", .int⟩, .attr ⟨"v", .float⟩] "x"
  have hout : (positions.infer ({} : Config)).outcome = .ok out := by decide
  have hbefore : grid.implementation? "value" = some steps := by decide
  have hafter : out.implementation? "value" = some (.attr ⟨"x", .int⟩) := by decide
  have hvalid : grid.names.Nodup ∧ grid.WellBound := labelled_valid _ _ _
  have hfree : ¬ (Arguments.select grid ["x", "v"]).Captures {} "x" := by
    have hflat : ¬ Inference.keepsDimensions grid ["x", "v"] := by decide
    rw [Arguments.Captures, Arguments.added, Arguments.asked, if_neg hflat, if_neg hflat]
    decide
  obtain ⟨input, e, f, hop, he, hf, hcarried, htype⟩ :=
    role_carried ({} : Config) positions out "value" "x"
      (fun input hop => Except.ok.inj hop ▸ hvalid) hout (by decide)
      (fun _ arguments h => Except.ok.inj h ▸ hfree)
  obtain rfl : grid = input := Except.ok.inj hop
  obtain rfl := Option.some.inj (hbefore.symm.trans he)
  exact ⟨hvalid.1, hvalid.2, out, f, hout, by decide, hf,
    Option.some.inj (hf.symm.trans hafter), hcarried, htype⟩

def Retypes (op : Operation) (before after : DataType) : Prop :=
  ∃ input out e f, op.inputSchema = .ok input ∧ input.names.Nodup ∧ input.WellBound ∧
    (op.infer ({} : Config)).outcome = .ok out ∧ input.implementation? "value" = some e ∧
    out.implementation? "value" = some f ∧ e.type = before ∧ f.type = after

lemma Retypes.of_labelled {op : Operation} {name element : String} {elements : List Element}
    {out : Schema} {e f : Element} (hop : op.inputSchema = .ok (labelled name elements element))
    (hout : (op.infer ({} : Config)).outcome = .ok out)
    (he : (labelled name elements element).implementation? "value" = some e)
    (hf : out.implementation? "value" = some f) : Retypes op e.type f.type := by
  obtain ⟨hnodup, hwellBound⟩ := labelled_valid name elements element
  exact ⟨_, out, e, f, hop, hnodup, hwellBound, hout, he, hf, rfl, rfl⟩

def totals : Operation := .ofKind .aggregate
  [⟨"inputTar", .schema (labelled "counts" [steps, .attr ⟨"v", .int⟩] "v")⟩, ⟨"dim0", .text "x"⟩,
   ⟨"operand0", .text "sum"⟩, ⟨"operand1", .text "v"⟩, ⟨"operand2", .text "v"⟩]

def indexed : Operation := .ofKind .select
  [⟨"inputTar", .schema (labelled "indexed" [steps, .attr ⟨"i", .float⟩] "i")⟩, ⟨"operand0", .text "i"⟩]

/-- A selection whose second copy of `v` gets the name of an element that is kept after it. -/
def doubled : Operation := .ofKind .select
  [⟨"inputTar", .schema (labelled "doubled" [.attr ⟨"v", .int⟩, .attr ⟨"v-new", .float⟩] "v-new")⟩,
   ⟨"operand0", .text "v"⟩, ⟨"operand1", .text "v"⟩, ⟨"operand2", .text "v-new"⟩]

theorem roles_retyped :
    Retypes totals .int .double ∧ Retypes indexed .float .long ∧ Retypes doubled .float .int := by
  let summed := labelled "" [steps, .attr ⟨"v", .double⟩] "v"
  let flat := labelled "" [.dim (.implicit "i" .long 1 4 1), .attr ⟨"i", .float⟩] "i"
  let copied := labelled "" [.attr ⟨"v", .int⟩, .attr ⟨"v", .int⟩, .attr ⟨"v-new", .float⟩] "v-new"
  have htotals : (totals.infer ({} : Config)).outcome = .ok summed := by decide
  have hindexed : (indexed.infer ({} : Config)).outcome = .ok flat := by decide
  have hdoubled : (doubled.infer ({} : Config)).outcome = .ok copied := by decide
  refine ⟨?_, ?_, ?_⟩
  · exact .of_labelled (e := .attr ⟨"v", .int⟩) (f := .attr ⟨"v", .double⟩) rfl htotals
      (by decide) (by decide +kernel)
  · exact .of_labelled (e := .attr ⟨"i", .float⟩) (f := .dim (.implicit "i" .long 1 4 1)) rfl hindexed
      (by decide) (by decide +kernel)
  · exact .of_labelled (e := .attr ⟨"v-new", .float⟩) (f := .attr ⟨"v-new", .int⟩) rfl hdoubled
      (by decide) (by decide +kernel)

end TensorSchema
