import Mathlib
import TensorSchema.Proofs.Inference.Results
import TensorSchema.Proofs.Plan.Invariants
import TensorSchema.Proofs.Plan.Runs

namespace TensorSchema

namespace Schema

inductive Reached : Schema → Prop
  | new (name : String) : Reached (.new name)
  | edit {s : Schema} (e : Edit) : Reached s → Reached (s.edit e)
  | propagate {source target : Schema} : Reached source → Reached target →
      Reached (Conformance.propagate source target)
  | infer {op : Operation} {out : Schema} (engine : Engine) :
      (∀ p ∈ op.parameters, ∀ s, p.value = .schema s → Reached s) →
      (op.infer engine).outcome = .ok out → Reached out

def BindsMandatory (s : Schema) : Prop :=
  ∀ type, s.nominal = some type → ∀ role, type.isMandatory role = true →
    ∃ element, s.roles.find? role = some element

def Implements (s : Schema) : Prop :=
  ∀ type, s.nominal = some type → ∀ role, type.isMandatory role = true →
    ∃ element, s.roles.find? role = some element ∧ element ∈ s.names

variable {s source target out : Schema}

lemma WellBound.propagate (hsource : source.WellBound) (htarget : target.WellBound) :
    (Conformance.propagate source target).WellBound := by
  rcases Conformance.propagate_cases source target with ⟨type, htype, _, h⟩ | ⟨_, h⟩
  · rw [h]
    exact hsource.attach htype target
  · rwa [h]

lemma WellBound.carries (hsource : source.WellBound) (h : Conformance.Carries source out) :
    out.WellBound := by
  intro role element hbound
  obtain ⟨htype, hbefore, helement⟩ := h.bound hbound
  obtain ⟨hrole, _⟩ := hsource role element hbefore
  exact ⟨htype ▸ hrole, helement⟩

lemma WellBound.infer {engine : Engine} {op : Operation}
    (hinput : ∀ input, op.inputSchema = .ok input → input.WellBound)
    (h : (op.infer engine).outcome = .ok out) : out.WellBound := by
  rcases Operation.infer_carries h with ⟨_, input, hop, hcarries⟩ | ⟨_, _, hempty⟩
  · exact (hinput input hop).carries hcarries
  · exact wellBound_of_empty hempty

lemma Reached.edited (h : Reached s) (edits : List Edit) : Reached (s.edited edits) := by
  induction edits generalizing s with
  | nil => exact h
  | cons e edits ih => exact ih (.edit e h)

lemma Reached.wellBound (h : Reached s) : s.WellBound := by
  induction h with
  | new name => exact wellBound_of_empty rfl
  | edit e _ ih => exact ih.edit e
  | propagate _ _ hsource htarget => exact hsource.propagate htarget
  | infer engine _ hout ih =>
    apply WellBound.infer _ hout
    intro input hinput
    obtain ⟨p, hp, hvalue⟩ := Operation.inputSchema_reads hinput
    exact ih p hp input hvalue

lemma BindsMandatory.implements (h : s.BindsMandatory) (hbound : s.WellBound) : s.Implements := by
  intro type htype role hrole
  obtain ⟨element, helement⟩ := h type htype role hrole
  exact ⟨element, helement, (hbound role element helement).2⟩

-- conformance looks only at bound roles, so what the source leaves unbound stays unbound
lemma Implements.carries (hsource : source.Implements) (h : Conformance.Carries source out) :
    out.Implements := by
  intro type htype role hrole
  obtain ⟨hbefore, hretains⟩ := (h.typed_iff type).mp htype
  obtain ⟨element, hbound, _⟩ := hsource type hbefore role hrole
  have helement := hretains role element hbound hrole
  exact ⟨element, (h.bound_iff type htype role element).mpr ⟨hbound, helement⟩, helement⟩

lemma preserves_implements (engine : Engine) : engine.Preserves Implements := by
  intro op out name hparameters h
  rcases Operation.infer_carries h with ⟨_, input, hinput, hcarries⟩ | ⟨_, hnone, _⟩
  · obtain ⟨p, hp, hvalue⟩ := Operation.inputSchema_reads hinput
    have himplements : out.Implements := (hparameters p hp input hvalue).carries hcarries
    exact himplements
  · intro type htype
    rw [rename, hnone] at htype
    cases htype

end Schema

open Schema in
/-- Every binding of a schema that edits, conformance and inference can make names a role of its type
and an element that it has. In a plan whose sources are of this kind and bind all mandatory roles,
every typed schema has elements for the mandatory roles of its type. -/
theorem roles_implemented :
    (∀ s, Reached s → s.WellBound) ∧
    ∀ (engine : Engine) (p : Plan) (r : InferredPlan),
      (∀ s, Node.source s ∈ p.nodes → Reached s ∧ s.BindsMandatory) →
      (p.infer engine).outcome = .ok r → ∀ id s, r.get? id = some s → s.Implements := by
  refine ⟨fun s h => h.wellBound, ?_⟩
  intro engine p r hsources h
  apply Plan.infer_preserves (preserves_implements engine) _ h
  intro s hs
  obtain ⟨hreached, hbinds⟩ := hsources s hs
  exact hbinds.implements hreached.wellBound

def trimmed : List Plan.Call :=
  [.addSource "reading" reading,
   .addOperator "values" .select [⟨"inputTar", .input ⟨0⟩⟩, ⟨"operand0", .text "v"⟩],
   .addOperator "some" .filter [⟨"inputTar", .input ⟨1⟩⟩]]

theorem trimmed_implemented : reading.WellBound ∧
    ∃ r s, ((Plan.built trimmed).infer ({} : Config)).outcome = .ok r ∧ r.get? ⟨2⟩ = some s ∧
      s.nominal = some measurement ∧ s.roles.find? "error" = none ∧ s.Implements := by
  have hreached : reading.Reached := (Schema.Reached.new "reading").edited _
  have hentries : measurement.roles.entries =
      [("error", ⟨"error", false⟩), ("value", ⟨"value", true⟩)] := by decide
  have hbinds : reading.BindsMandatory := by
    intro type htype role hrole
    obtain rfl : measurement = type := Option.some.inj htype
    obtain ⟨found, hfound, hmandatory⟩ := (Option.any_eq_true _ _).mp hrole
    have hmem := NameMap.find?_eq_some_iff.mp hfound
    rw [hentries] at hmem
    simp only [List.mem_cons, Prod.mk.injEq, List.not_mem_nil, or_false] at hmem
    rcases hmem with ⟨rfl, rfl⟩ | ⟨rfl, rfl⟩
    · cases hmandatory
    · exact ⟨"v", by decide⟩
  let values := (Schema.new "").edited
    [.push (.attr ⟨"v", .float⟩), .withType measurement, .bindRole "value" "v"]
  let r : InferredPlan := ⟨[some reading, some (values.rename "values"), some (values.rename "some")]⟩
  have hr : ((Plan.built trimmed).infer ({} : Config)).outcome = .ok r := by decide
  refine ⟨roles_implemented.1 _ hreached, r, _, hr, rfl, rfl, by decide, ?_⟩
  apply roles_implemented.2 _ _ r _ hr ⟨2⟩ _ rfl
  intro s hs
  have hnodes : (Plan.built trimmed).nodes = [.source reading,
      .operator .select "select" [⟨"inputTar", .input ⟨0⟩⟩, ⟨"operand0", .text "v"⟩],
      .operator .filter "filter" [⟨"inputTar", .input ⟨1⟩⟩]] := by decide
  obtain rfl : s = reading := by simpa [hnodes] using hs
  exact ⟨hreached, hbinds⟩

end TensorSchema
