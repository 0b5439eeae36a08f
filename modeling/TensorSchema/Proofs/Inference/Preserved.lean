import Mathlib
import TensorSchema.Proofs.Inference.Results
import TensorSchema.Proofs.Inference.Subsets

namespace TensorSchema

def OperatorKind.elementKeeping : List OperatorKind := [scan, filter, split, arithmetic, subset]

namespace Inference

open Schema

variable {engine : Engine} {arguments : Arguments} {t out : Schema} {es : List Element}

lemma distinct_attr (es : List Element) (a : Attribute) :
    ∃ k, distinct (es ++ [.attr a]) = distinct es ++ [.attr ⟨duplicateName a.name k, a.type⟩] := by
  obtain ⟨k, hk⟩ := storedName_eq (plain (distinct es)) a.name
  refine ⟨k, ?_⟩
  rw [distinct_concat, ← hk]
  rfl

lemma distinct_masked (conventions : Conventions) (t : Schema) : ∃ j k,
    distinct (masked conventions t) = distinct t.elements ++
      [.attr ⟨duplicateName conventions.maskAttribute j, .boolean⟩,
        .attr ⟨duplicateName conventions.offsetAttribute k, .long⟩] := by
  obtain ⟨j, hj⟩ := distinct_attr t.elements ⟨conventions.maskAttribute, .boolean⟩
  obtain ⟨k, hk⟩ := distinct_attr (t.elements ++ [.attr ⟨conventions.maskAttribute, .boolean⟩])
    ⟨conventions.offsetAttribute, .long⟩
  refine ⟨j, k, ?_⟩
  rw [masked, List.append_cons, hk, hj, List.append_assoc]
  rfl

def ResultType (t : Schema) (operator : String) (left right : Operand) :
    Option String → DataType → Prop
  | none, type => type = .double
  | some _, type => ∃ l r, operandType t left = .ok l ∧ operandType t right = .ok r ∧
    promote l r operator = .ok type

lemma resultAttribute_ok {operator : String} {left right : Operand} {computed : DataType}
    (h : computedType t operator left right = .ok computed) (newMember : Option String) :
    ∃ type, resultAttribute engine.conventions computed newMember =
        ⟨newMember.getD engine.conventions.arithmeticResult, type⟩ ∧
      ResultType t operator left right newMember type := by
  obtain ⟨l, hl, h⟩ := bind_eq_ok h
  obtain ⟨r, hr, h⟩ := bind_eq_ok h
  cases newMember with
  | none => exact ⟨.double, rfl, rfl⟩
  | some name => exact ⟨computed, rfl, l, r, hl, hr, mapError_eq_ok h⟩

lemma Layout.names_extend (h : Layout engine arguments es) (hsource : arguments.typeSource? = some t)
    (hkind : arguments.kind ∈ OperatorKind.elementKeeping) :
    (distinct t.elements).map Element.name <+: es.map Element.name := by
  cases arguments with
  | scan | filter | split =>
    obtain rfl := Option.some.inj hsource
    obtain rfl := h
    exact List.prefix_refl _
  | arithmetic =>
    obtain rfl := Option.some.inj hsource
    obtain ⟨computed, -, rfl⟩ := h
    exact (distinct_extends _ _).map _
  | subset =>
    obtain rfl := Option.some.inj hsource
    rw [names_of_narrowed (narrowAll_ok h)]
  | select | aggregate => simp [Arguments.kind, OperatorKind.elementKeeping] at hkind
  | logical | comparison | cross | dimensionJoin | userDefined => cases hsource

structure Preserves (engine : Engine) (t : Schema) : Prop where
  cells : ∀ arguments ∈ [Arguments.scan t, .filter t, .split t],
    ∃ out, (apply engine arguments).outcome = .ok out ∧ out.elements = t.elements
  masks : ∀ arguments ∈ [Arguments.logical t, .comparison t],
    ∃ out j k, (apply engine arguments).outcome = .ok out ∧ out.elements = t.elements ++
      [.attr ⟨duplicateName engine.conventions.maskAttribute j, .boolean⟩,
        .attr ⟨duplicateName engine.conventions.offsetAttribute k, .long⟩]
  results : ∀ operator left right newMember out,
    (apply engine (.arithmetic t operator left right newMember)).outcome = .ok out →
    ∃ k type, out.elements = t.elements ++
        [.attr ⟨duplicateName (newMember.getD engine.conventions.arithmeticResult) k, type⟩] ∧
      ResultType t operator left right newMember type
  bounds : ∀ bounds out, (apply engine (.subset t bounds)).outcome = .ok out →
    List.Forall₂ (NarrowedIn bounds) t.elements out.elements
  /-- Bindings go with the type: those of an untyped schema are dropped. -/
  types : (∀ role element, t.roles.find? role = some element → element ∈ t.names) →
    ∀ arguments out, arguments.typeSource? = some t → arguments.kind ∈ OperatorKind.elementKeeping →
    (apply engine arguments).outcome = .ok out →
      out.nominal = t.nominal ∧ out.roles = if t.nominal.isSome then t.roles else ∅

lemma types_kept (hbound : ∀ role element, t.roles.find? role = some element → element ∈ t.names)
    (hnodup : t.names.Nodup) (hsource : arguments.typeSource? = some t)
    (hkind : arguments.kind ∈ OperatorKind.elementKeeping)
    (h : (apply engine arguments).outcome = .ok out) :
    out.nominal = t.nominal ∧ out.roles = if t.nominal.isSome then t.roles else ∅ := by
  obtain ⟨es, hlayout, rfl⟩ := apply_layout h
  have hnames := hlayout.names_extend hsource hkind
  rw [distinct_of_nodup hnodup] at hnames
  have hresult : arguments.result es = Conformance.propagate t (plain es) := by
    rw [Arguments.result, hsource]
  rw [hresult]
  cases htype : t.nominal with
  | none =>
    rw [Conformance.propagate_of_lost (by simp [htype])]
    exact ⟨rfl, rfl⟩
  | some type =>
    have hresolved : ∀ role element, t.roles.find? role = some element → element ∈ (plain es).names :=
      fun role element hrole => hnames.subset (hbound role element hrole)
    rw [Conformance.propagate_of_resolved htype hresolved]
    exact ⟨rfl, rfl⟩

/-- No rule renames, reorders or drops an element of a schema with distinct names. -/
theorem apply_preserves (engine : Engine) (hnodup : t.names.Nodup) : Preserves engine t := by
  have hsame : distinct t.elements = t.elements := distinct_of_nodup hnodup
  have hcopy : (passThrough t).outcome = .ok (Conformance.propagate t (plain t.elements)) := by
    rw [passThrough, Conformance.outcome_carry, copy_structural, hsame]
  refine ⟨?_, ?_, ?_, ?_, ?_⟩
  · intro arguments harguments
    refine ⟨Conformance.propagate t (plain t.elements), ?_, Conformance.elements_propagate _ _⟩
    simp only [List.mem_cons, List.not_mem_nil, or_false] at harguments
    rcases harguments with rfl | rfl | rfl <;> exact hcopy
  · intro arguments harguments
    obtain ⟨j, k, hmasked⟩ := distinct_masked engine.conventions t
    rw [hsame] at hmasked
    have hpredicate : predicate engine.conventions t = plain (distinct (masked engine.conventions t)) :=
      pushAll_copy t _
    refine ⟨predicate engine.conventions t, j, k, ?_, ?_⟩
    · simp only [List.mem_cons, List.not_mem_nil, or_false] at harguments
      rcases harguments with rfl | rfl <;> rfl
    · rw [hpredicate]
      exact hmasked
  · intro operator left right newMember out hout
    obtain ⟨es, ⟨computed, hcomputed, rfl⟩, rfl⟩ := apply_layout hout
    obtain ⟨type, hattribute, htype⟩ := resultAttribute_ok hcomputed newMember
    rw [Arguments.elements_result, hattribute]
    obtain ⟨k, hk⟩ := distinct_attr t.elements _
    rw [hk, hsame]
    exact ⟨k, type, rfl, htype⟩
  · intro bounds out hout
    obtain ⟨es, hes, rfl⟩ := apply_layout hout
    rw [Arguments.elements_result, ← hsame]
    exact narrowedIn_of_narrowAll hes
  · intro hbound arguments out hsource hkind hout
    exact types_kept hbound hnodup hsource hkind hout

def gauge : Schema := (Schema.new "gauge").edited
  [.push (.dim (.implicit "x" .int 0 100 5)), .push (.attr ⟨"v", .float⟩), .withType measurement,
    .bindRole "value" "v"]

theorem gauge_preserved : gauge.names.Nodup ∧
    (∀ role element, gauge.roles.find? role = some element → element ∈ gauge.names) ∧
    (∃ out k type, (apply ({} : Config) (.arithmetic gauge "*" (.element "v") (.literal 2)
        (some "v"))).outcome = .ok out ∧
      out.elements = gauge.elements ++ [.attr ⟨duplicateName "v" k, type⟩] ∧
      promote .float (.natural 2) "*" = .ok type ∧
      out.nominal = some measurement ∧ out.roles = gauge.roles) ∧
    ∃ out, (apply ({} : Config) (.subset gauge [⟨"x", 12, 38⟩])).outcome = .ok out ∧
      List.Forall₂ (NarrowedIn [⟨"x", 12, 38⟩]) gauge.elements out.elements ∧
      out.elements ≠ gauge.elements ∧ out.nominal = some measurement ∧ out.roles = gauge.roles := by
  have hnodup : gauge.names.Nodup := by decide +kernel
  have hentries : ∀ entry ∈ gauge.roles.entries, entry.2 ∈ gauge.names := by decide +kernel
  have hbound : ∀ role element, gauge.roles.find? role = some element → element ∈ gauge.names :=
    fun role element hrole => hentries _ (NameMap.find?_eq_some_iff.mp hrole)
  have htyped : gauge.nominal = some measurement := by decide +kernel
  let doubled : Schema := { gauge with name := "", elements := gauge.elements ++ [.attr ⟨"v-new", .float⟩] }
  have hdoubled : (apply ({} : Config) (.arithmetic gauge "*" (.element "v") (.literal 2)
      (some "v"))).outcome = .ok doubled := by
    decide +kernel
  let narrowed : Schema :=
    { gauge with name := "", elements := [.dim (.implicit "x" .int 14 35 5), .attr ⟨"v", .float⟩] }
  have hnarrowed : (apply ({} : Config) (.subset gauge [⟨"x", 12, 38⟩])).outcome = .ok narrowed := by
    decide +kernel
  have hkept : Preserves ({} : Config) gauge := apply_preserves _ hnodup
  obtain ⟨k, type, helements, l, r, hl, hr, htype⟩ := hkept.results _ _ _ _ _ hdoubled
  obtain rfl : l = .float := by
    have hv : operandType gauge (.element "v") = .ok .float := by decide +kernel
    exact Except.ok.inj (hl.symm.trans hv)
  obtain rfl := Except.ok.inj hr
  have htypes := hkept.types hbound
  rw [htyped] at htypes
  refine ⟨hnodup, hbound, ⟨doubled, k, type, hdoubled, helements, htype, ?_⟩,
    narrowed, hnarrowed, hkept.bounds _ _ hnarrowed, by decide +kernel, ?_⟩
  · exact htypes _ _ rfl (by decide) hdoubled
  · exact htypes _ _ rfl (by decide) hnarrowed

def unmeasured : Schema :=
  ⟨"unmeasured", [.attr ⟨"v", .float⟩], none, (∅ : NameMap String).insert "value" "v"⟩

theorem untyped_bindings_dropped : unmeasured.names.Nodup ∧
    (∀ role element, unmeasured.roles.find? role = some element → element ∈ unmeasured.names) ∧
    ∃ out, (apply ({} : Config) (.scan unmeasured)).outcome = .ok out ∧ out.roles ≠ unmeasured.roles := by
  have hentries : ∀ entry ∈ unmeasured.roles.entries, entry.2 ∈ unmeasured.names := by decide +kernel
  refine ⟨by decide, ?_, plain unmeasured.elements, by decide +kernel⟩
  intro role element hrole
  exact hentries _ (NameMap.find?_eq_some_iff.mp hrole)

end Inference

end TensorSchema
