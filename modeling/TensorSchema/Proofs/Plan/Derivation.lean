import Mathlib
import TensorSchema.Proofs.Plan.Typing

/-! The schemas that follow from the sources of a plan, as a relation beside inference. On a plan in which
nothing points forward, the outcome of inference is determined by it: all schemas, or the error of the first
node whose rule fails on the schemas of its inputs. -/

namespace TensorSchema.Plan

inductive Derives (engine : Engine) (p : Plan) : NodeId → Schema → Prop
  | intro {id : NodeId} {node : Node} {name : String} {schema : Schema} (schemaOf : NodeId → Schema) :
      p.node? id = some node → p.name? id = some name →
      (∀ m ∈ node.inputs, Derives engine p m (schemaOf m)) →
      node.rule engine schemaOf name = .ok schema → Derives engine p id schema

def Fails (engine : Engine) (p : Plan) (id : NodeId) (cause : SchemaError) : Prop :=
  ∃ (kind : OperatorKind) (operator : String) (parameters : List PlanParameter)
    (schemaOf : NodeId → Schema), p.node? id = some (.operator kind operator parameters) ∧
    (∀ m ∈ p.inputs id, Derives engine p m (schemaOf m)) ∧
    ((Operation.applied kind operator (parameters.map (·.fill schemaOf))).infer engine).outcome =
      .error cause

variable {engine : Engine} {p : Plan} {known r : InferredPlan} {id : NodeId} {schema : Schema}
  {cause : SchemaError}

lemma Derives.unique {other : Schema} (h : Derives engine p id schema)
    (ho : Derives engine p id other) : schema = other := by
  induction h generalizing other with
  | intro schemaOf hnode hname _ hrule ih =>
    cases ho with
    | intro schemaOf' hnode' hname' hinputs' hrule' =>
      obtain rfl := Option.some.inj (hnode.symm.trans hnode')
      obtain rfl := Option.some.inj (hname.symm.trans hname')
      rw [Node.rule_congr engine _ fun m hm => ih m hm (hinputs' m hm), hrule'] at hrule
      exact (Except.ok.inj hrule).symm

lemma fails_iff : Fails engine p id cause ↔ ∃ (node : Node) (schemaOf : NodeId → Schema),
    p.node? id = some node ∧ (∀ m ∈ node.inputs, Derives engine p m (schemaOf m)) ∧
      ∀ name, node.rule engine schemaOf name = .error cause := by
  constructor
  · rintro ⟨kind, operator, parameters, schemaOf, hnode, hinputs, hinfer⟩
    exact ⟨_, schemaOf, hnode, inputs_of_node hnode ▸ hinputs, fun name =>
      Node.rule_eq_error.mpr ⟨kind, operator, parameters, rfl, hinfer⟩⟩
  · rintro ⟨node, schemaOf, hnode, hinputs, hrule⟩
    obtain ⟨kind, operator, parameters, rfl, hinfer⟩ := Node.rule_eq_error.mp (hrule "")
    exact ⟨kind, operator, parameters, schemaOf, hnode, inputs_of_node hnode ▸ hinputs, hinfer⟩

lemma Fails.registered (h : Fails engine p id cause) : p.contains id = true := by
  obtain ⟨node, _, hnode, _⟩ := fails_iff.mp h
  exact contains_of_node hnode

lemma Fails.unique {other : SchemaError} (h : Fails engine p id cause) (ho : Fails engine p id other) :
    cause = other := by
  obtain ⟨node, f, hnode, hf, hrule⟩ := fails_iff.mp h
  obtain ⟨node', g, hnode', hg, hrule'⟩ := fails_iff.mp ho
  obtain rfl := Option.some.inj (hnode.symm.trans hnode')
  have hcongr := Node.rule_congr engine "" fun m hm => (hf m hm).unique (hg m hm)
  rw [hrule, hrule'] at hcongr
  exact Except.error.inj hcongr

lemma Derives.not_fails (h : Derives engine p id schema) : ¬ Fails engine p id cause := by
  intro hfails
  obtain ⟨node, g, hnode', hg, hrule'⟩ := fails_iff.mp hfails
  cases h with
  | @intro _ _ name _ f hnode hname hf hrule =>
    obtain rfl := Option.some.inj (hnode.symm.trans hnode')
    have hcongr := Node.rule_congr engine name fun m hm => (hf m hm).unique (hg m hm)
    rw [hrule, hrule'] at hcongr
    cases hcongr

inductive Settles (engine : Engine) (p : Plan) : Except PlanError InferredPlan → Prop
  | ok {r : InferredPlan} : r.schemas.length = p.count →
      (∀ id, p.contains id = true → ∃ schema, r.get? id = some schema ∧ Derives engine p id schema) →
      Settles engine p (.ok r)
  | error {id : NodeId} {name : String} {cause : SchemaError} : p.name? id = some name →
      Fails engine p id cause → (∀ m, m.index < id.index → ∃ schema, Derives engine p m schema) →
      Settles engine p (.error (.inference id name cause))

lemma Settles.not_fails (h : Settles engine p (.ok r)) : ¬ Fails engine p id cause := by
  intro hfails
  cases h with
  | ok _ hall =>
    obtain ⟨schema, _, hderives⟩ := hall id hfails.registered
    exact hderives.not_fails hfails

lemma Settles.unique {x y : Except PlanError InferredPlan} (hcount : p.count ≤ 2 ^ 32)
    (hx : Settles engine p x) (hy : Settles engine p y) : x = y := by
  cases hx with
  | @ok r hlen hall =>
    cases hy with
    | @ok s hlen' hall' =>
      congr 1
      apply InferredPlan.eq_of_get? hcount hlen hlen'
      intro id hid
      obtain ⟨schema, hget, hderives⟩ := hall id (contains_iff.mpr hid)
      obtain ⟨schema', hget', hderives'⟩ := hall' id (contains_iff.mpr hid)
      obtain rfl := hderives.unique hderives'
      exact ⟨schema, hget, hget'⟩
    | error _ hfails _ =>
      exact ((Settles.ok hlen hall).not_fails hfails).elim
  | @error id name cause hname hfails hbelow =>
    cases hy with
    | ok hlen hall => exact ((Settles.ok hlen hall).not_fails hfails).elim
    | @error id' name' cause' hname' hfails' hbelow' =>
      -- a node before a failing one has a schema, so neither comes before the other
      obtain rfl : id = id' := by
        rcases lt_trichotomy id.index id'.index with hlt | heq | hgt
        · obtain ⟨schema, hderives⟩ := hbelow' id hlt
          exact (hderives.not_fails hfails).elim
        · exact NodeId.index_injective heq
        · obtain ⟨schema, hderives⟩ := hbelow id' hgt
          exact (hderives.not_fails hfails').elim
      obtain rfl := Option.some.inj (hname.symm.trans hname')
      rw [hfails.unique hfails']

def Sound (engine : Engine) (p : Plan) (known : InferredPlan) : Prop :=
  ∀ id schema, known.get? id = some schema → Derives engine p id schema

lemma Settles.sound {r : InferredPlan} (h : Settles engine p (.ok r)) : Sound engine p r := by
  intro id schema hget
  cases h with
  | ok hlen hall =>
    have hid := InferredPlan.index_lt_of_get? hget
    obtain ⟨found, hfound, hderives⟩ := hall id (contains_iff.mpr (hlen ▸ hid))
    obtain rfl := Option.some.inj (hfound.symm.trans hget)
    exact hderives

lemma sound_unknown (engine : Engine) (p : Plan) : Sound engine p p.unknown := by
  intro id schema hget
  rw [get?_unknown] at hget
  cases hget

lemma Sound.set (hsound : Sound engine p known) (hderives : Derives engine p id schema) :
    Sound engine p (known.set id schema) := by
  intro other found hget
  rcases InferredPlan.get?_set_cases hget with ⟨rfl, rfl⟩ | hbefore
  · exact hderives
  · exact hsound other found hbefore

lemma inferNode_cases {node : Node} {name : String} (hnode : p.node? id = some node)
    (hname : p.name? id = some name) (hsound : Sound engine p known)
    (hinputs : ∀ m ∈ node.inputs, ∃ schema, known.get? m = some schema) :
    (∃ schema, (inferNode engine known id name node).outcome = .ok schema ∧
        Derives engine p id schema) ∨
      ∃ cause, (inferNode engine known id name node).outcome = .error (.inference id name cause) ∧
        Fails engine p id cause := by
  obtain ⟨schemaOf, hknown⟩ := exists_schemaOf hinputs
  have hderived : ∀ m ∈ node.inputs, Derives engine p m (schemaOf m) :=
    fun m hm => hsound m _ (hknown m hm)
  rw [inferNode_outcome hknown]
  cases hrule : node.rule engine schemaOf name with
  | ok schema => exact Or.inl ⟨schema, rfl, .intro schemaOf hnode hname hderived hrule⟩
  | error cause =>
    obtain ⟨kind, operator, parameters, rfl, hinfer⟩ := Node.rule_eq_error.mp hrule
    exact Or.inr ⟨cause, rfl, kind, operator, parameters, schemaOf, hnode,
      inputs_of_node hnode ▸ hderived, hinfer⟩

lemma inferAlong_settles (h : p.Consistent) (hcount : p.count ≤ 2 ^ 32) (n k : ℕ)
    (hn : k + n = p.count) (hlen : known.schemas.length = p.count) (hsound : Sound engine p known)
    (hdone : ∀ m : NodeId, m.index < k → ∃ schema, known.get? m = some schema) :
    Settles engine p
      (inferAlong engine p known ((List.range' k n).map NodeId.ofNat)).outcome := by
  induction n generalizing k known with
  | zero =>
    refine .ok hlen ?_
    intro id hid
    obtain ⟨schema, hget⟩ := hdone id (by rw [contains_iff] at hid; omega)
    exact ⟨schema, hget, hsound id schema hget⟩
  | succ n ih =>
    rw [List.range'_succ, List.map_cons]
    have hindex : (NodeId.ofNat k).index = k := NodeId.index_ofNat (by omega)
    have hlt : (NodeId.ofNat k).index < p.count := by omega
    have hnext : ∀ {m : NodeId}, m.index < k + 1 → m.index < k ∨ m = .ofNat k := by
      intro m hm
      rcases Nat.lt_succ_iff_lt_or_eq.mp hm with hm | hm
      · exact Or.inl hm
      · exact Or.inr (NodeId.index_injective (hm.trans hindex.symm))
    cases hknown : known.get? (.ofNat k) with
    | some schema =>
      rw [inferAlong_skip (Or.inr ⟨schema, hknown⟩)]
      apply ih (k + 1) (by omega) hlen hsound
      intro m hm
      rcases hnext hm with hm | rfl
      · exact hdone m hm
      · exact ⟨schema, hknown⟩
    | none =>
      obtain ⟨node, hnode⟩ := exists_node (contains_iff.mpr hlt)
      have hname : p.name? (.ofNat k) = some _ := List.getElem?_eq_getElem (h.names_length ▸ hlt)
      have hinputs : ∀ m ∈ node.inputs, ∃ schema, known.get? m = some schema := by
        intro m hm
        exact hdone m (hindex ▸ h.inputs_lt (.ofNat k) m (inputs_of_node hnode ▸ hm))
      rw [inferAlong_cons hknown hnode, hname, Option.getD_some]
      rcases inferNode_cases hnode hname hsound hinputs with
        ⟨schema, hschema, hderives⟩ | ⟨cause, hcause, hfails⟩
      · rw [hschema]
        apply ih (k + 1) (by omega) (by simpa using hlen) (hsound.set hderives)
        intro m hm
        rcases hnext hm with hm | rfl
        · have hne : m ≠ .ofNat k := fun he => by
            rw [he, hindex] at hm
            exact lt_irrefl k hm
          rw [InferredPlan.get?_set_ne hne]
          exact hdone m hm
        · exact ⟨schema, InferredPlan.get?_set_self (hlen ▸ hlt)⟩
      · rw [hcause]
        refine .error hname hfails ?_
        intro m hm
        obtain ⟨schema, hget⟩ := hdone m (hindex ▸ hm)
        exact ⟨schema, hsound m schema hget⟩

lemma inferFrom_settles (h : p.Consistent) (hcount : p.count ≤ 2 ^ 32)
    (hlen : known.schemas.length = p.count) (hsound : Sound engine p known) :
    Settles engine p (p.inferFrom engine known).outcome := by
  rw [infer_outcome, sort_eq_ids h hcount]
  have hsettles := inferAlong_settles h hcount p.count 0 (Nat.zero_add _) hlen hsound (by simp)
  rwa [← List.range_eq_range'] at hsettles

lemma infer_settles (engine : Engine) (h : p.Consistent) (hcount : p.count ≤ 2 ^ 32) :
    Settles engine p (p.infer engine).outcome :=
  inferFrom_settles h hcount p.length_unknown (sound_unknown engine p)

lemma Settles.error_least {error : PlanError} (h : Settles engine p (.error error)) :
    ∃ id name cause, error = .inference id name cause ∧ p.name? id = some name ∧
      Fails engine p id cause ∧ ∀ other cause', Fails engine p other cause' → id.index ≤ other.index := by
  cases h with
  | @error id name cause hname hfails hbelow =>
    refine ⟨id, name, cause, rfl, hname, hfails, ?_⟩
    intro other cause' hother
    by_contra hlt
    obtain ⟨schema, hderives⟩ := hbelow other (by omega)
    exact hderives.not_fails hother

theorem infer_fails_iff (engine : Engine) (calls : List Call)
    (hcount : (built calls).count ≤ 2 ^ 32) :
    (∃ order, (built calls).sort = .ok order ∧
      order.map NodeId.index = List.range (built calls).count) ∧
    (∀ name, ((built calls).infer engine).outcome ≠ .error (.cycle name)) ∧
    (∀ node input, ((built calls).infer engine).outcome ≠ .error (.unresolvedInput node input)) ∧
    (∀ r, ((built calls).infer engine).outcome = .ok r → Sound engine (built calls) r) ∧
    ((∃ error, ((built calls).infer engine).outcome = .error error) ↔
      ∃ id cause, Fails engine (built calls) id cause) ∧
    ∀ error, ((built calls).infer engine).outcome = .error error →
      ∃ id name cause, error = .inference id name cause ∧ (built calls).name? id = some name ∧
        Fails engine (built calls) id cause ∧
        ∀ other cause', Fails engine (built calls) other cause' → id.index ≤ other.index := by
  have h := built_consistent calls
  have hsettles := infer_settles engine h hcount
  have hleast := fun error (herror : ((built calls).infer engine).outcome = .error error) =>
    Settles.error_least (herror ▸ hsettles)
  refine ⟨⟨_, sort_eq_ids h hcount, ids_map_index hcount⟩, ?_, ?_, ?_, ⟨?_, ?_⟩, hleast⟩
  · intro name herror
    obtain ⟨_, _, _, hshape, _⟩ := hleast _ herror
    cases hshape
  · intro node input herror
    obtain ⟨_, _, _, hshape, _⟩ := hleast _ herror
    cases hshape
  · intro r hok
    exact (hok ▸ hsettles).sound
  · rintro ⟨error, herror⟩
    obtain ⟨id, _, cause, _, _, hfails, _⟩ := hleast error herror
    exact ⟨id, cause, hfails⟩
  · rintro ⟨id, cause, hfails⟩
    cases hout : ((built calls).infer engine).outcome with
    | error error => exact ⟨error, rfl⟩
    | ok r => exact ((hout ▸ hsettles).not_fails hfails).elim

def unruled : List Call :=
  [.addSource "cells" cells,
   .addOperator "kept" .scan [⟨"inputTar", .input ⟨0⟩⟩],
   .addUserDefined "odd" "smooth" [⟨"inputTar", .input ⟨1⟩⟩],
   .addOperator "kept" .filter [⟨"inputTar", .input ⟨2⟩⟩],
   .addUserDefined "odd" "blur" [⟨"inputTar", .input ⟨0⟩⟩]]

theorem unruled_fails : (built unruled).count ≤ 2 ^ 32 ∧
    ((built unruled).infer ({} : Config)).outcome =
      .error (.inference ⟨2⟩ "odd" (.unsupported "smooth")) ∧
    Fails ({} : Config) (built unruled) ⟨2⟩ (.unsupported "smooth") ∧
    ∀ other cause, Fails ({} : Config) (built unruled) other cause →
      (⟨2⟩ : NodeId).index ≤ other.index := by
  have hcount : (built unruled).count ≤ 2 ^ 32 := by decide
  have herror : ((built unruled).infer ({} : Config)).outcome =
      .error (.inference ⟨2⟩ "odd" (.unsupported "smooth")) := by decide
  obtain ⟨_, _, _, _, _, hleast⟩ := infer_fails_iff ({} : Config) unruled hcount
  obtain ⟨id, name, cause, hshape, _, hfails, hfirst⟩ := hleast _ herror
  obtain ⟨rfl, rfl, rfl⟩ := PlanError.inference.inj hshape
  exact ⟨hcount, herror, hfails, hfirst⟩

end TensorSchema.Plan
