import Mathlib
import TensorSchema.Proofs.Schema.Edits

/-! A copy of a copy is one copy, of the parts that both take over. -/

namespace TensorSchema.Schema

variable {s t : Schema}

def Parts.common (f g : Parts) : Parts :=
  ⟨f.dimensions && g.dimensions, f.attributes && g.attributes, f.nominal && g.nominal⟩

lemma Parts.keeps_common (f g : Parts) (e : Element) :
    (f.common g).keeps e = (f.keeps e && g.keeps e) := by
  cases e <;> rfl

section Fields

lemma name_copy (s : Schema) (parts : Parts) : (s.copy parts).name = "" := by
  rw [copy, pushAll_new]
  cases s.nominal <;> cases parts.nominal <;> rfl

lemma elements_copy (h : s.names.Nodup) (parts : Parts) :
    (s.copy parts).elements = s.elements.filter parts.keeps := by
  have hkept : ((s.elements.filter parts.keeps).map Element.name).Nodup :=
    h.sublist (List.filter_sublist.map _)
  rw [copy, pushAll_new, distinct_of_nodup hkept]
  cases s.nominal <;> cases parts.nominal <;> rfl

lemma nominal_copy (s : Schema) (parts : Parts) :
    (s.copy parts).nominal = if parts.nominal then s.nominal else none := by
  rw [copy, pushAll_new]
  cases s.nominal <;> cases parts.nominal <;> rfl

lemma roles_copy (s : Schema) (parts : Parts) :
    (s.copy parts).roles =
      if (s.copy parts).nominal.isSome then (s.copy parts).restrictRoles s.roles else ∅ := by
  rw [copy, pushAll_new]
  cases s.nominal <;> cases parts.nominal <;> rfl

lemma restrictRoles_congr (h : s.elements = t.elements) (roles : NameMap String) :
    s.restrictRoles roles = t.restrictRoles roles := by
  simp only [restrictRoles, hasElement, element?, h]

end Fields

theorem copy_copy (h : s.names.Nodup) (f g : Parts) : (s.copy g).copy f = s.copy (f.common g) := by
  have hfirst : (s.copy g).names.Nodup := nodup_edit h (.copy g)
  have helements : ((s.copy g).copy f).elements = (s.copy (f.common g)).elements := by
    rw [elements_copy hfirst, elements_copy h, elements_copy h, List.filter_filter]
    exact List.filter_congr fun e _ => (Parts.keeps_common f g e).symm
  have hnominal : ((s.copy g).copy f).nominal = (s.copy (f.common g)).nominal := by
    simp only [nominal_copy, Parts.common]
    cases f.nominal <;> cases g.nominal <;> rfl
  have hroles : ((s.copy g).copy f).roles = (s.copy (f.common g)).roles := by
    rw [roles_copy (s.copy g) f, roles_copy s (f.common g), hnominal]
    split
    next htyped =>
      have hsource : (s.copy g).nominal.isSome = true := by
        rw [← hnominal, nominal_copy] at htyped
        split at htyped
        next => exact htyped
        next => cases htyped
      have hkept : ((s.copy g).copy f).names ⊆ (s.copy g).names := by
        rw [names, elements_copy hfirst]
        exact List.map_subset _ List.filter_sublist.subset
      -- a binding that the first step drops has no element left in the second
      rw [roles_copy s g, if_pos hsource,
        restrictRoles_restrictRoles fun _ _ _ helement => hkept helement, restrictRoles_congr helements]
    next => rfl
  exact (mk.injEq ..).mpr ⟨(name_copy ..).trans (name_copy ..).symm, helements, hnominal, hroles⟩

def labelledGrid : Schema where
  name := "grid"
  elements := [.dim (.implicit "x" .int 0 9 1), .attr ⟨"v", .float⟩, .dim (.implicit "y" .int 0 4 1)]
  nominal := some ⟨"image", NameMap.ofList
    [("across", ⟨"across", true⟩), ("shade", ⟨"shade", false⟩), ("time", ⟨"time", false⟩)]⟩
  -- there is no element `t`
  roles := NameMap.ofList [("across", "x"), ("shade", "v"), ("time", "t")]

theorem labelledGrid_copied :
    labelledGrid.names.Nodup ∧
    (labelledGrid.copy ⟨true, false, true⟩).copy ⟨true, true, true⟩ =
      labelledGrid.copy ⟨true, false, true⟩ ∧
    (labelledGrid.copy ⟨true, false, true⟩).names = ["x", "y"] ∧
    (labelledGrid.copy ⟨true, false, true⟩).roles.entries = [("across", "x")] :=
  ⟨by decide, copy_copy (by decide) ⟨true, true, true⟩ ⟨true, false, true⟩, by decide,
    by decide⟩

end TensorSchema.Schema
