import Mathlib
import TensorSchema.Inference.Subset
import TensorSchema.Proofs.Outcome

/-! Narrowing changes the bounds and the index range of dimensions, and nothing else. -/

namespace TensorSchema

inductive Element.Narrowed : Element → Element → Prop
  | same (e : Element) : Narrowed e e
  | within (d : Dimension) (lower upper : Float) (first last : Int64) :
      Narrowed (.dim d)
        (.dim { d with lower := lower, upper := upper, firstIndex := first, lastIndex := last })

namespace Element.Narrowed

variable {e f g : Element}

lemma name_eq (h : e.Narrowed f) : f.name = e.name := by
  cases h <;> rfl

lemma type_eq (h : e.Narrowed f) : f.type = e.type := by
  cases h <;> rfl

lemma trans (h : e.Narrowed f) (hg : f.Narrowed g) : e.Narrowed g := by
  cases h with
  | same => exact hg
  | within d lower upper first last =>
    cases hg with
    | same => exact .within d lower upper first last
    | within _ lower' upper' first' last' => exact .within d lower' upper' first' last'

end Element.Narrowed

namespace Inference

variable {b : Bound} {d narrowed : Dimension} {es fs : List Element}

lemma forall₂_comp {α β γ : Type} {R : α → β → Prop} {S : β → γ → Prop} {T : α → γ → Prop}
    {as : List α} {bs : List β} {cs : List γ} (h : List.Forall₂ R as bs) (h' : List.Forall₂ S bs cs)
    (hcomp : ∀ a b c, R a b → S b c → T a c) : List.Forall₂ T as cs := by
  induction h generalizing cs with
  | nil =>
    cases h'
    exact .nil
  | cons hhead _ ih =>
    cases h' with
    | cons hnext hrest => exact .cons (hcomp _ _ _ hhead hnext) (ih hrest)

lemma names_of_narrowed (h : List.Forall₂ Element.Narrowed es fs) :
    fs.map Element.name = es.map Element.name := by
  induction h with
  | nil => rfl
  | cons hhead _ ih => rw [List.map_cons, List.map_cons, hhead.name_eq, ih]

lemma find?_narrowed {name : String} {e : Element} (h : List.Forall₂ Element.Narrowed es fs)
    (he : es.find? (fun e => e.name = name) = some e) :
    ∃ f, fs.find? (fun e => e.name = name) = some f ∧ e.Narrowed f := by
  induction h with
  | nil => cases he
  | @cons head head' _ _ hhead _ ih =>
    have hname' := hhead.name_eq
    by_cases hname : head.name = name
    · rw [List.find?_cons_of_pos (by simp [hname])] at he
      obtain rfl := Option.some.inj he
      exact ⟨head', List.find?_cons_of_pos (by simp [hname', hname]), hhead⟩
    · rw [List.find?_cons_of_neg (by simp [hname])] at he
      rw [List.find?_cons_of_neg (by simp [hname', hname])]
      exact ih he

lemma narrowGrid_ok (h : narrowGrid d b = .ok narrowed) :
    (Element.dim d).Narrowed (.dim narrowed) := by
  unfold narrowGrid at h
  split at h
  next => cases h
  next =>
    split at h
    next => cases h
    next =>
      dsimp only at h
      split at h
      next => cases h
      next =>
        split at h
        next => cases h
        next =>
          obtain rfl := Except.ok.inj h
          exact .within d _ _ _ _

inductive NarrowedBy (b : Bound) : Element → Element → Prop
  | same (e : Element) : NarrowedBy b e e
  | grid {d narrowed : Dimension} : d.isImplicit = true → narrowGrid d b = .ok narrowed →
      NarrowedBy b (.dim d) (.dim narrowed)

lemma NarrowedBy.toNarrowed {e f : Element} (h : NarrowedBy b e f) : e.Narrowed f := by
  cases h with
  | same => exact .same e
  | grid _ hgrid => exact narrowGrid_ok hgrid

lemma narrowDimension_ok (h : (narrowDimension d b).outcome = .ok narrowed) :
    NarrowedBy b (.dim d) (.dim narrowed) := by
  unfold narrowDimension at h
  split at h
  next =>
    obtain rfl := Except.ok.inj h
    exact .same _
  next himplicit =>
    split at h
    next => cases h
    next grid hgrid =>
      obtain rfl := Except.ok.inj h
      exact .grid (by simpa using himplicit) hgrid

lemma narrow_ok (h : (narrow b es).outcome = .ok fs) : List.Forall₂ (NarrowedBy b) es fs := by
  induction es generalizing fs with
  | nil => cases h
  | cons e rest ih =>
    cases e with
    | dim d =>
      rw [narrow] at h
      split at h
      next =>
        rw [Traced.outcome_bind] at h
        obtain ⟨narrowed, hnarrowed, hrest⟩ := bind_eq_ok h
        obtain rfl := Except.ok.inj hrest
        exact .cons (narrowDimension_ok hnarrowed) (List.forall₂_same.mpr fun e _ => .same e)
      next =>
        rw [Traced.outcome_bind] at h
        obtain ⟨others, hothers, hrest⟩ := bind_eq_ok h
        obtain rfl := Except.ok.inj hrest
        exact .cons (.same _) (ih hothers)
    | attr a =>
      rw [narrow, Traced.outcome_bind] at h
      obtain ⟨others, hothers, hrest⟩ := bind_eq_ok h
      obtain rfl := Except.ok.inj hrest
      exact .cons (.same _) (ih hothers)

lemma narrowAll_ok {bounds : List Bound} (h : (narrowAll bounds es).outcome = .ok fs) :
    List.Forall₂ Element.Narrowed es fs := by
  induction bounds generalizing es with
  | nil =>
    obtain rfl := Except.ok.inj h
    exact List.forall₂_same.mpr fun e _ => .same e
  | cons b rest ih =>
    rw [narrowAll, Traced.outcome_bind] at h
    obtain ⟨narrowed, hnarrowed, hrest⟩ := bind_eq_ok h
    exact forall₂_comp (narrow_ok hnarrowed) (ih hrest) fun _ _ _ hstep => hstep.toNarrowed.trans

end Inference

end TensorSchema
