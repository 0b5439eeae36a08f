import Mathlib
import TensorSchema.Proofs.Plan.Consistency
import TensorSchema.Proofs.Snapshot.Schema
import TensorSchema.Snapshot.Plan

/-! A saved plan is loaded as it was, unless one of its doubles is not finite. The names in use, which are
not saved, are those of the nodes if the plan was built by calls. -/

namespace TensorSchema

open Json

namespace OperatorKind

lemma ofJson?_toJson (k : OperatorKind) : ofJson? k.toJson = some k := by
  cases k <;> rfl

end OperatorKind

namespace NodeId

lemma ofJson?_toJson (id : NodeId) : ofJson? id.toJson = some id := by
  rw [ofJson?, toJson, index, uint32?_ofInt]
  rfl

lemma wellFormed_toJson (id : NodeId) : WellFormed id.toJson := wellFormed_ofInt _

end NodeId

namespace PlanValue

def floats : PlanValue → List Float
  | number x => [x]
  | _ => []

lemma ofJson?_toJson {v : PlanValue} (h : Faithful v.floats) : ofJson? v.toJson = whenFinite v.floats v := by
  cases v with
  | input node => simp [ofJson?, toJson, variant?_variant, NodeId.ofJson?_toJson, floats, whenFinite]
  | text s => simp [ofJson?, toJson, variant?_variant, string?_text, floats, whenFinite]
  | number x =>
    have hx := float?_ofFloat (h x (by simp [floats]))
    simp [ofJson?, toJson, variant?_variant, hx, map_whenFinite, floats]

lemma wellFormed_toJson (v : PlanValue) : WellFormed v.toJson := by
  cases v with
  | input node => exact wellFormed_variant _ node.wellFormed_toJson
  | text s => exact wellFormed_variant _ (wellFormed_text s)
  | number x => exact wellFormed_variant _ (wellFormed_ofFloat x)

end PlanValue

namespace PlanParameter

def floats (p : PlanParameter) : List Float := p.value.floats

lemma ofJson?_toJson {p : PlanParameter} (h : Faithful p.floats) :
    ofJson? p.toJson = whenFinite p.floats p := by
  rw [ofJson?, toJson, fields?_record (by decide) rfl]
  simp only [List.map_cons, List.map_nil, string?_text, PlanValue.ofJson?_toJson h,
    Option.bind_eq_bind, Option.bind_some, Option.pure_def, whenFinite_bind_some]
  rfl

lemma wellFormed_toJson (p : PlanParameter) : WellFormed p.toJson := by
  apply wellFormed_zip
  simp [wellFormed_text, PlanValue.wellFormed_toJson]

end PlanParameter

namespace Node

def floats : Node → List Float
  | source schema => schema.floats
  | operator _ _ parameters => parameters.flatMap PlanParameter.floats

lemma ofJson?_toJson {node : Node} (h : Faithful node.floats) :
    ofJson? node.toJson = whenFinite node.floats node := by
  cases node with
  | source schema => simp [ofJson?, toJson, variant?_variant, Schema.ofJson?_toJson h, map_whenFinite, floats]
  | operator kind name parameters =>
    have hparameters :=
      list?_whenFinite fun p hp => PlanParameter.ofJson?_toJson (faithful_flatMap h p hp)
    simp only [ofJson?, toJson, variant?_variant]
    rw [operatorOfJson?, fields?_record (by decide) rfl]
    simp only [List.map_cons, List.map_nil, OperatorKind.ofJson?_toJson, string?_text, hparameters,
      Option.bind_eq_bind, Option.bind_some, Option.pure_def, whenFinite_bind_some]
    rfl

lemma wellFormed_toJson (node : Node) : WellFormed node.toJson := by
  cases node with
  | source schema => exact wellFormed_variant _ schema.wellFormed_toJson
  | operator kind name parameters =>
    refine wellFormed_variant _ (wellFormed_zip ?_)
    simp [OperatorKind.toJson, wellFormed_text,
      wellFormed_list parameters PlanParameter.wellFormed_toJson]

end Node

namespace Span

lemma ofJson?_toJson (s : Span) : ofJson? s.toJson = some s := by
  simp [ofJson?, toJson, uint32?_ofInt]

lemma wellFormed_toJson (s : Span) : WellFormed s.toJson :=
  .array (by simp [wellFormed_ofInt])

end Span

namespace Plan

def floats (p : Plan) : List Float := p.nodes.flatMap Node.floats

lemma uint32?_edgeToJson (edge : UInt32) : (edgeToJson edge).uint32? = some edge := uint32?_ofInt edge

lemma wellFormed_edgeToJson (edge : UInt32) : Json.WellFormed (edgeToJson edge) := wellFormed_ofInt _

lemma ofJson?_toJson {p : Plan} (h : Faithful p.floats) :
    ofJson? p.toJson = whenFinite p.floats { p with usedNames := [] } := by
  have hnodes := list?_whenFinite fun node hnode => Node.ofJson?_toJson (faithful_flatMap h node hnode)
  rw [ofJson?, toJson, fields?_record (by decide) rfl]
  simp only [List.map_cons, List.map_nil, hnodes, list?_map p.names string?_text,
    list?_map p.parentColumn NodeId.ofJson?_toJson, list?_map p.parentSpans Span.ofJson?_toJson,
    list?_map p.firstEdges uint32?_edgeToJson, list?_map p.edgeTargets NodeId.ofJson?_toJson,
    list?_map p.nextEdges uint32?_edgeToJson, Option.bind_eq_bind, Option.bind_some, Option.pure_def,
    whenFinite_bind_some]
  rfl

lemma wellFormed_toJson (p : Plan) : Json.WellFormed p.toJson := by
  apply wellFormed_zip
  simp [wellFormed_list, wellFormed_text, Node.wellFormed_toJson, NodeId.wellFormed_toJson,
    Span.wellFormed_toJson, wellFormed_edgeToJson]

lemma loadColumns?_save {p : Plan} (h : Faithful p.floats) :
    loadColumns? p.save = whenFinite p.floats { p with usedNames := [] } := by
  rw [loadColumns?, save, parse?_render p.wellFormed_toJson, Option.bind_some, ofJson?_toJson h]

lemma restoreNames_columns {p : Plan} (h : p.usedNames = p.names) :
    restoreNames { p with usedNames := [] } = p := by
  cases p
  simp_all [restoreNames]

lemma load?_save_built {calls : List Call} (hfinite : (built calls).floats.all Float.isFinite = true)
    (h : Faithful (built calls).floats) : load? (built calls).save = some (built calls) := by
  rw [load?, loadColumns?_save h, whenFinite, if_pos hfinite, Option.map_some,
    restoreNames_columns (built_consistent calls).usedNames_eq]

end Plan

/-- Every schema and every plan is loaded from its snapshot as it was saved if all its doubles are finite,
and refused if one is not. That a double is read back from its text is assumed of the doubles at hand,
since reading rounds twice and does not return all of them. -/
theorem snapshots_restore :
    (∀ s : Schema, (∀ x ∈ s.floats, x.isFinite = true → Json.ReadsBack x) →
      Schema.load? s.save = if s.floats.all Float.isFinite then some s else none) ∧
    (∀ p : Plan, (∀ x ∈ p.floats, x.isFinite = true → Json.ReadsBack x) →
      Plan.loadColumns? p.save =
        if p.floats.all Float.isFinite then some { p with usedNames := [] } else none) ∧
    ∀ calls : List Plan.Call,
      (∀ x ∈ (Plan.built calls).floats, x.isFinite = true ∧ Json.ReadsBack x) →
      Plan.load? (Plan.built calls).save = some (Plan.built calls) := by
  refine ⟨fun s h => Schema.load?_save h, fun p h => Plan.loadColumns?_save h, ?_⟩
  intro calls h
  have hfinite : (Plan.built calls).floats.all Float.isFinite = true :=
    List.all_eq_true.mpr fun x hx => (h x hx).1
  exact Plan.load?_save_built hfinite fun x hx _ => (h x hx).2

namespace Plan

def escaped (upper : Float) : Schema where
  name := "\"\\/\x01\n😀"
  elements := [.dim ⟨"", .double, -0.0, upper, 0.125, .explicit, -3, 9223372036854775807⟩,
    .attr ⟨"\t\x7b\x7d", .string⟩, .attr ⟨"\t\x7b\x7d", .long⟩]
  nominal := some ⟨"null", NameMap.ofList [("𝄞", ⟨"[", true⟩), ("", ⟨"\r", false⟩)]⟩
  roles := NameMap.ofList [("𝄞", "\t\x7b\x7d")]

def literals (x : Float) : List Call :=
  [.addSource "\u2028" (escaped 1e-7),
   .addUserDefined "\u2028" "\x7b" [⟨"in", .input ⟨0⟩⟩, ⟨"x", .number x⟩, ⟨"s", .text "\"\x00"⟩]]

theorem escaped_restored :
    Schema.load? (escaped 1e300).save = some (escaped 1e300) ∧
    Schema.load? (escaped (1 / 0)).save = none ∧
    loadColumns? (built (literals (0 / 0))).save = none ∧
    loadColumns? (built (literals 2.5)).save = some { built (literals 2.5) with usedNames := [] } ∧
    load? (built (literals 2.5)).save = some (built (literals 2.5)) := by
  refine ⟨?_, ?_, ?_, ?_, snapshots_restore.2.2 _ (by decide +kernel)⟩
  · rw [snapshots_restore.1 _ (by decide +kernel), if_pos (by decide +kernel)]
  · rw [snapshots_restore.1 _ (by decide +kernel), if_neg (by decide +kernel)]
  · rw [snapshots_restore.2.1 _ (by decide +kernel), if_neg (by decide +kernel)]
  · rw [snapshots_restore.2.1 _ (by decide +kernel), if_pos (by decide +kernel)]

end Plan

end TensorSchema
