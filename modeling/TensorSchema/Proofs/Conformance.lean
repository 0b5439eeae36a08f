import Mathlib
import TensorSchema.Conformance
import TensorSchema.Proofs.Schema.Edits

/-! The type of a source is given to a target exactly if no bound mandatory role loses its element. What is
given in steps is what is given at once, if no name that a step lacks comes back. -/

namespace TensorSchema.Conformance

open Schema (plain)

variable {source target out : Schema} {type : NominalType} {roles : NameMap String}

def Retains (source target : Schema) (type : NominalType) : Prop :=
  ∀ role element, source.roles.find? role = some element → type.isMandatory role = true →
    element ∈ target.names

lemma check_eq_holds : check source target = .holds type roles ↔
    source.nominal = some type ∧ Retains source target type ∧
      roles = target.restrictRoles source.roles := by
  unfold check
  split
  next hnone => simp [hnone]
  next known hknown =>
    split
    next role element hlost =>
      have hbound := NameMap.find?_eq_some_iff.mpr (List.mem_of_find?_eq_some hlost)
      have hmissing := List.find?_some hlost
      simp only [Bool.and_eq_true, Bool.not_eq_true', ← Bool.not_eq_true,
        Schema.hasElement_iff] at hmissing
      simp only [reduceCtorEq, false_iff, hknown, Option.some.injEq]
      rintro ⟨rfl, hretains, _⟩
      exact hmissing.1 (hretains role element hbound hmissing.2)
    next hnone =>
      have hretains : Retains source target known := by
        intro role element hbound hmandatory
        have hkept := List.find?_eq_none.mp hnone _ (NameMap.find?_eq_some_iff.mp hbound)
        simpa [hmandatory, Schema.hasElement_iff] using hkept
      simp only [holds.injEq, hknown, Option.some.injEq]
      constructor
      · rintro ⟨rfl, rfl⟩
        exact ⟨rfl, hretains, rfl⟩
      · rintro ⟨rfl, _, rfl⟩
        exact ⟨rfl, rfl⟩

lemma propagate_of_retains (htype : source.nominal = some type) (h : Retains source target type) :
    propagate source target = target.attach type (target.restrictRoles source.roles) := by
  rw [propagate, check_eq_holds.mpr ⟨htype, h, rfl⟩]

lemma propagate_of_lost (h : ∀ type, source.nominal = some type → ¬ Retains source target type) :
    propagate source target = target := by
  unfold propagate
  split
  next type roles hholds =>
    obtain ⟨htype, hretains, _⟩ := check_eq_holds.mp hholds
    exact (h type htype hretains).elim
  next => rfl

lemma propagate_cases (source target : Schema) :
    (∃ type, source.nominal = some type ∧ Retains source target type ∧
      propagate source target = target.attach type (target.restrictRoles source.roles)) ∨
    (∀ type, source.nominal = some type → ¬ Retains source target type) ∧
      propagate source target = target := by
  by_cases h : ∃ type, source.nominal = some type ∧ Retains source target type
  · obtain ⟨type, htype, hretains⟩ := h
    exact Or.inl ⟨type, htype, hretains, propagate_of_retains htype hretains⟩
  · have hlost : ∀ type, source.nominal = some type → ¬ Retains source target type :=
      fun type htype hretains => h ⟨type, htype, hretains⟩
    exact Or.inr ⟨hlost, propagate_of_lost hlost⟩

lemma retains_attach_iff {mid : Schema} (h : Retains source mid type) :
    Retains (mid.attach type (mid.restrictRoles source.roles)) target type ↔
      Retains source target type := by
  constructor
  · intro hretains role element hbound hmandatory
    have hmid := h role element hbound hmandatory
    exact hretains role element (Schema.find?_restrictRoles.mpr ⟨hbound, hmid⟩) hmandatory
  · intro hretains role element hbound hmandatory
    exact hretains role element (Schema.find?_restrictRoles.mp hbound).1 hmandatory

lemma lost_propagate {mid : Schema} (huntyped : mid.nominal = none)
    (h : ∀ type, source.nominal = some type → ¬ Retains source target type) :
    ∀ type, (propagate source mid).nominal = some type →
      ¬ Retains (propagate source mid) target type := by
  intro type htype hretains
  rcases propagate_cases source mid with ⟨known, hknown, hkept, hmid⟩ | ⟨_, hmid⟩
  · rw [hmid] at htype hretains
    obtain rfl := Option.some.inj htype
    exact h known hknown ((retains_attach_iff hkept).mp hretains)
  · rw [hmid, huntyped] at htype
    cases htype

lemma propagate_through {mid : Schema} (huntyped : mid.nominal = none)
    (h : ∀ type, source.nominal = some type → Retains source target type → ∀ role element,
      source.roles.find? role = some element → element ∈ target.names → element ∈ mid.names) :
    propagate (propagate source mid) target = propagate source target := by
  rcases propagate_cases source target with ⟨type, htype, hretains, hout⟩ | ⟨hlost, hout⟩
  · have hbindings := h type htype hretains
    have hmid : Retains source mid type := by
      intro role element hbound hmandatory
      exact hbindings role element hbound (hretains role element hbound hmandatory)
    rw [hout, propagate_of_retains htype hmid,
      propagate_of_retains rfl ((retains_attach_iff hmid).mpr hretains)]
    change target.attach type (target.restrictRoles (mid.restrictRoles source.roles)) = _
    rw [Schema.restrictRoles_restrictRoles hbindings]
  · rw [hout, propagate_of_lost (lost_propagate huntyped hlost)]

lemma propagate_propagate {mid : Schema} (huntyped : mid.nominal = none)
    (hnames : target.names ⊆ mid.names) :
    propagate (propagate source mid) target = propagate source target := by
  apply propagate_through huntyped
  intro _ _ _ role element _ helement
  exact hnames helement

lemma propagate_of_resolved (htype : source.nominal = some type)
    (h : ∀ role element, source.roles.find? role = some element → element ∈ target.names) :
    propagate source target = target.attach type source.roles := by
  have hretains : Retains source target type := fun role element hbound _ => h role element hbound
  rw [propagate_of_retains htype hretains, Schema.restrictRoles_eq_self h]

lemma elements_propagate (source target : Schema) :
    (propagate source target).elements = target.elements := by
  rcases propagate_cases source target with ⟨type, _, _, h⟩ | ⟨_, h⟩
  · rw [h]
    rfl
  · rw [h]

lemma names_propagate (source target : Schema) : (propagate source target).names = target.names :=
  congrArg (List.map Element.name) (elements_propagate source target)

structure Carries (source out : Schema) : Prop where
  typed_iff : ∀ type, out.nominal = some type ↔
    source.nominal = some type ∧ Retains source out type
  bound_iff : ∀ type, out.nominal = some type → ∀ role element,
    out.roles.find? role = some element ↔ source.roles.find? role = some element ∧ element ∈ out.names
  unbound : out.nominal = none → out.roles = ∅

lemma Carries.bound {role element : String} (h : Carries source out)
    (hbound : out.roles.find? role = some element) :
    source.nominal = out.nominal ∧ source.roles.find? role = some element ∧ element ∈ out.names := by
  cases htype : out.nominal with
  | none =>
    rw [h.unbound htype, NameMap.find?_empty] at hbound
    cases hbound
  | some type => exact ⟨((h.typed_iff type).mp htype).1, (h.bound_iff type htype role element).mp hbound⟩

lemma carries_propagate (source : Schema) (es : List Element) :
    Carries source (propagate source (plain es)) := by
  rcases propagate_cases source (plain es) with ⟨type, htype, hretains, h⟩ | ⟨hlost, h⟩
  · rw [h]
    refine ⟨?_, ?_, ?_⟩
    · intro other
      constructor
      · intro hother
        obtain rfl := Option.some.inj hother
        exact ⟨htype, hretains⟩
      · rintro ⟨hother, _⟩
        exact htype.symm.trans hother
    · intro other _ role element
      exact Schema.find?_restrictRoles
    · intro hnone
      cases hnone
  · rw [h]
    refine ⟨?_, ?_, fun _ => rfl⟩
    · intro other
      constructor
      · intro hother
        cases hother
      · rintro ⟨hother, hretains⟩
        exact (hlost other hother hretains).elim
    · intro other hother
      cases hother

lemma propagate_propagate_iff {es fs : List Element} :
    propagate (propagate source (plain es)) (plain fs) = propagate source (plain fs) ↔
      ∀ role element, (propagate source (plain fs)).roles.find? role = some element →
        element ∈ (plain es).names := by
  constructor
  · -- a binding that is there after two steps was there after the first
    intro h role element hbound
    rw [← h] at hbound
    obtain ⟨-, hmid, -⟩ := (carries_propagate _ fs).bound hbound
    obtain ⟨-, -, helement⟩ := (carries_propagate source es).bound hmid
    rwa [names_propagate] at helement
  · intro h
    apply propagate_through rfl
    intro type htype hretains role element hbound helement
    apply h role element
    rw [propagate_of_retains htype hretains]
    exact Schema.find?_restrictRoles.mpr ⟨hbound, helement⟩

theorem propagate_along {steps : List Schema} (huntyped : ∀ mid ∈ steps, mid.nominal = none)
    (hnames : ∀ mid ∈ steps, target.names ⊆ mid.names) :
    propagate (steps.foldl propagate source) target = propagate source target := by
  induction steps generalizing source with
  | nil => rfl
  | cons mid rest ih =>
    obtain ⟨hmid, hrest⟩ := List.forall_mem_cons.mp huntyped
    obtain ⟨hmidNames, hrestNames⟩ := List.forall_mem_cons.mp hnames
    rw [List.foldl_cons, ih hrest hrestNames, propagate_propagate hmid hmidNames]

def columns (names : List String) : Schema := plain (names.map fun name => .attr ⟨name, .float⟩)

def station : Schema where
  name := "station"
  elements := (columns ["x", "v", "e", "n"]).elements
  nominal := some (((NominalType.new "station").withRole "position" true).withRole "error" false)
  roles := .ofList [("position", "x"), ("error", "e"), ("note", "n")]

theorem station_along :
    propagate (propagate station (columns ["n", "v", "x"])) (columns ["x", "v"]) =
      (columns ["x", "v"]).attach
        (((NominalType.new "station").withRole "position" true).withRole "error" false)
        (.ofList [("position", "x")]) ∧
    propagate (propagate station (columns ["v", "e"])) (columns ["e"]) = columns ["e"] := by
  have hnoted : propagate ([columns ["n", "v", "x"]].foldl propagate station) (columns ["x", "v"]) =
      propagate station (columns ["x", "v"]) :=
    propagate_along (by decide) (by decide)
  have hmoved : propagate ([columns ["v", "e"]].foldl propagate station) (columns ["e"]) =
      propagate station (columns ["e"]) :=
    propagate_along (by decide) (by decide)
  exact ⟨hnoted.trans (by decide), hmoved.trans (by decide +kernel)⟩

end TensorSchema.Conformance
