import Mathlib
import TensorSchema.Proofs.Inference.Snapping

/-! Bounds one after the other. A list of them changes only the grids that it names, and two lists in a row
are one: what the first leaves, names and bindings included, is all that the second reads. -/

namespace TensorSchema.Inference

open Schema

variable {b : Bound} {bounds : List Bound} {d new : Dimension} {e f g : Element} {es fs : List Element}

inductive NarrowedIn (bounds : List Bound) : Element → Element → Prop
  | same (e : Element) : NarrowedIn bounds e e
  | grid (d : Dimension) (lower upper : Float) (first last : Int64) :
      d.isImplicit = true → d.name ∈ bounds.map Bound.dimension →
      NarrowedIn bounds (.dim d)
        (.dim { d with lower := lower, upper := upper, firstIndex := first, lastIndex := last })

lemma NarrowedIn.trans (h : NarrowedIn [b] e f) (hg : NarrowedIn bounds f g) :
    NarrowedIn (b :: bounds) e g := by
  cases h with
  | same =>
    cases hg with
    | same => exact .same e
    | grid d lower upper first last himplicit hname =>
      exact .grid d lower upper first last himplicit (List.mem_cons_of_mem _ hname)
  | grid d lower upper first last himplicit hname =>
    have hname : d.name ∈ (b :: bounds).map Bound.dimension := List.mem_append_left _ hname
    cases hg with
    | same => exact .grid d lower upper first last himplicit hname
    | grid _ lower' upper' first' last' => exact .grid d lower' upper' first' last' himplicit hname

lemma narrowedIn_of_narrowDimension (hname : d.name = b.dimension)
    (h : (narrowDimension d b).outcome = .ok new) : NarrowedIn [b] (.dim d) (.dim new) := by
  cases narrowDimension_ok h with
  | same => exact .same _
  | grid himplicit hgrid =>
    obtain ⟨length, -, rfl⟩ := (narrowGrid_eq_ok.mp hgrid).moved
    exact .grid d _ _ _ _ himplicit (by simp [hname])

lemma narrowedIn_of_narrow (h : (narrow b es).outcome = .ok fs) : List.Forall₂ (NarrowedIn [b]) es fs := by
  obtain ⟨before, d, new, after, rfl, -, hname, hnew, rfl⟩ := replaced_of_narrow h
  have hsame (es : List Element) : List.Forall₂ (NarrowedIn [b]) es es :=
    List.forall₂_same.mpr fun e _ => .same e
  apply List.rel_append (hsame before)
  exact .cons (narrowedIn_of_narrowDimension hname hnew) (hsame after)

lemma narrowedIn_of_narrowAll (h : (narrowAll bounds es).outcome = .ok fs) :
    List.Forall₂ (NarrowedIn bounds) es fs := by
  induction bounds generalizing es with
  | nil =>
    obtain rfl := Except.ok.inj h
    exact List.forall₂_same.mpr fun e _ => .same e
  | cons b rest ih =>
    rw [narrowAll, Traced.outcome_bind] at h
    obtain ⟨mid, hmid, hrest⟩ := bind_eq_ok h
    exact forall₂_comp (narrowedIn_of_narrow hmid) (ih hrest) fun _ _ _ => NarrowedIn.trans

lemma narrowAll_append (first second : List Bound) (es : List Element) :
    (narrowAll (first ++ second) es).outcome =
      (narrowAll first es).outcome.bind fun mid => (narrowAll second mid).outcome := by
  induction first generalizing es with
  | nil => rfl
  | cons b rest ih =>
    simp only [List.cons_append, narrowAll, Traced.outcome_bind, ih]
    cases (narrow b es).outcome <;> rfl

theorem subset_append (input : Schema) (first second : List Bound) :
    (subset input (first ++ second)).outcome =
      (subset input first).outcome >>= fun mid => (subset mid second).outcome := by
  rw [outcome_subset, outcome_subset, narrowAll_append]
  cases hfirst : (narrowAll first (distinct input.elements)).outcome with
  | error cause => rfl
  | ok mid =>
    have hnames := names_of_narrowed (narrowAll_ok hfirst)
    have hmid : distinct mid = mid := by
      apply distinct_of_nodup
      rw [hnames]
      exact nodup_distinct _
    change (narrowAll second mid).outcome.map _ =
      (subset (Conformance.propagate input (plain mid)) second).outcome
    rw [outcome_subset, Conformance.elements_propagate]
    change _ = (narrowAll second (distinct mid)).outcome.map _
    rw [hmid]
    cases hsecond : (narrowAll second mid).outcome with
    | error cause => rfl
    | ok es =>
      -- bounds rename nothing, so no role that the first subset lost comes back
      apply congrArg Except.ok
      symm
      apply Conformance.propagate_propagate rfl
      change es.map Element.name ⊆ mid.map Element.name
      rw [names_of_narrowed (narrowAll_ok hsecond)]
      exact List.Subset.refl _

end TensorSchema.Inference
