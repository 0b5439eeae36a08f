import Mathlib
import TensorSchema.Proofs.NameMap
import TensorSchema.Proofs.Schema.Names

/-! Schemas that are built by edits, refused ones among them. Their names are distinct, and their role
bindings name roles of the type and elements of the schema. -/

namespace TensorSchema.Schema

inductive Edit where
  | push (e : Element)
  | withType (type : NominalType)
  | bindRole (role element : String)
  | rename (name : String)
  | copy (parts : Parts)
deriving DecidableEq

def edit (s : Schema) : Edit → Schema
  | .push e => (s.push e).1
  | .withType type => s.withType type
  | .bindRole role element => (s.bindRole role element).1
  | .rename name => s.rename name
  | .copy parts => s.copy parts

def edited (s : Schema) (edits : List Edit) : Schema := edits.foldl edit s

variable {s t : Schema} {role element : String}

lemma bindRole_cases (s : Schema) (role element : String) :
    s.bindRole role element = (s, .error (.invalidBinding role element)) ∨
      ((∃ type, s.nominal = some type ∧ (type.role? role).isSome = true) ∧ element ∈ s.names ∧
        s.bindRole role element = ({ s with roles := s.roles.insert role element }, .ok ())) := by
  unfold bindRole
  split
  next hbind =>
    rw [Bool.and_eq_true, Option.any_eq_true, hasElement_iff] at hbind
    exact Or.inr ⟨hbind.1, hbind.2, rfl⟩
  next => exact Or.inl rfl

lemma nodup_edit (h : s.names.Nodup) (e : Edit) : (s.edit e).names.Nodup := by
  cases e with
  | push e => exact nodup_push h e
  | withType type => exact h
  | bindRole role element =>
    rw [edit]
    rcases bindRole_cases s role element with hrefused | ⟨-, -, hbound⟩
    · rwa [hrefused]
    · rw [hbound]
      exact h
  | rename name => exact h
  | copy parts =>
    obtain ⟨es, hplain | ⟨type, _, htyped⟩⟩ := s.copy_cases parts
    · rw [edit, hplain]
      exact nodup_distinct es
    · rw [edit, htyped]
      exact nodup_distinct es

lemma nodup_edited (h : s.names.Nodup) (edits : List Edit) : (s.edited edits).names.Nodup := by
  induction edits generalizing s with
  | nil => exact h
  | cons e edits ih => exact ih (nodup_edit h e)

def WellBound (s : Schema) : Prop :=
  ∀ role element, s.roles.find? role = some element →
    (∃ type, s.nominal = some type ∧ (type.role? role).isSome = true) ∧ element ∈ s.names

lemma find?_restrictRoles {roles : NameMap String} :
    (s.restrictRoles roles).find? role = some element ↔
      roles.find? role = some element ∧ element ∈ s.names := by
  rw [restrictRoles, NameMap.find?_filter, hasElement_iff]

lemma restrictRoles_restrictRoles {roles : NameMap String}
    (h : ∀ role element, roles.find? role = some element → element ∈ t.names → element ∈ s.names) :
    t.restrictRoles (s.restrictRoles roles) = t.restrictRoles roles := by
  apply NameMap.eq_of_entries
  simp only [restrictRoles, NameMap.filter, List.filter_filter]
  apply List.filter_congr
  intro entry hentry
  rw [Bool.and_eq_left_iff_imp, hasElement_iff, hasElement_iff]
  exact h entry.1 entry.2 (NameMap.find?_eq_some_iff.mpr hentry)

lemma restrictRoles_eq_self {roles : NameMap String}
    (h : ∀ role element, roles.find? role = some element → element ∈ s.names) :
    s.restrictRoles roles = roles := by
  apply NameMap.eq_of_entries
  apply List.filter_eq_self.mpr
  intro entry hentry
  rw [hasElement_iff]
  exact h entry.1 entry.2 (NameMap.find?_eq_some_iff.mpr hentry)

lemma wellBound_of_empty (h : s.roles = ∅) : s.WellBound := by
  intro role element hbound
  rw [h, NameMap.find?_empty] at hbound
  cases hbound

lemma WellBound.push (h : s.WellBound) (e : Element) : (s.push e).1.WellBound := by
  intro role element hbound
  obtain ⟨hrole, helement⟩ := h role element hbound
  refine ⟨hrole, ?_⟩
  rw [names_push]
  exact List.mem_append_left _ helement

lemma WellBound.bindRole (h : s.WellBound) (role element : String) :
    (s.bindRole role element).1.WellBound := by
  rcases bindRole_cases s role element with hrefused | ⟨hrole, helement, hok⟩
  · rwa [hrefused]
  · rw [hok]
    intro other found hbound
    rcases NameMap.find?_insert hbound with ⟨rfl, rfl⟩ | hbefore
    · exact ⟨hrole, helement⟩
    · exact h other found hbefore

lemma WellBound.attach {type : NominalType} (h : s.WellBound) (htype : s.nominal = some type)
    (t : Schema) : (t.attach type (t.restrictRoles s.roles)).WellBound := by
  intro role element hbound
  obtain ⟨hsource, helement⟩ := find?_restrictRoles.mp hbound
  obtain ⟨⟨known, hknown, hrole⟩, _⟩ := h role element hsource
  obtain rfl := Option.some.inj (htype.symm.trans hknown)
  exact ⟨⟨type, rfl, hrole⟩, helement⟩

lemma WellBound.copy (h : s.WellBound) (parts : Parts) : (s.copy parts).WellBound := by
  obtain ⟨es, hplain | ⟨type, htype, htyped⟩⟩ := s.copy_cases parts
  · rw [hplain]
    exact wellBound_of_empty rfl
  · rw [htyped]
    exact h.attach htype _

lemma WellBound.edit (h : s.WellBound) (e : Edit) : (s.edit e).WellBound := by
  cases e with
  | push e => exact h.push e
  | withType type => exact wellBound_of_empty rfl
  | bindRole role element => exact h.bindRole role element
  | rename name => exact h
  | copy parts => exact h.copy parts

end TensorSchema.Schema
