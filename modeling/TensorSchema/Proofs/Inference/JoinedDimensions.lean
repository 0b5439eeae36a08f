import Mathlib
import TensorSchema.Proofs.Inference.IndexRanges

namespace TensorSchema

open Schema (distinct plain duplicateName)

namespace Inference

variable {engine : Engine} {left right out : Schema} {pairs : List (String × String)} {l r : String}
  {d joined : Dimension} {es : List Element}

def Settled (pairs : List (String × String)) (l r : String) : Prop :=
  ∃ before after, pairs = before ++ (l, r) :: after ∧ ∀ p ∈ after, p.1 ≠ l

lemma partner?_eq_none : partner? pairs l = none ↔ ∀ p ∈ pairs, p.1 ≠ l := by
  simp [partner?]

lemma partner?_eq_some : partner? pairs l = some r ↔ Settled pairs l r := by
  rw [partner?, Option.map_eq_some_iff]
  constructor
  · rintro ⟨⟨l', r'⟩, hfound, rfl⟩
    obtain ⟨hname, after, before, hpairs, hlater⟩ := List.find?_eq_some_iff_append.mp hfound
    obtain rfl : l' = l := by simpa using hname
    refine ⟨before.reverse, after.reverse, ?_, ?_⟩
    · rw [← List.reverse_reverse pairs, hpairs]
      simp
    · intro p hp
      simpa using hlater p (List.mem_reverse.mp hp)
  · rintro ⟨before, after, rfl, hlater⟩
    refine ⟨(l, r), ?_, rfl⟩
    refine List.find?_eq_some_iff_append.mpr ⟨by simp, after.reverse, before.reverse, by simp, ?_⟩
    intro p hp
    simpa using hlater p (List.mem_reverse.mp hp)

lemma settled_of_nodup (hnodup : (pairs.map Prod.fst).Nodup) (h : (l, r) ∈ pairs) :
    Settled pairs l r := by
  obtain ⟨before, after, rfl⟩ := List.append_of_mem h
  refine ⟨before, after, rfl, ?_⟩
  intro p hp hsame
  rw [List.map_append, List.nodup_append, List.map_cons, List.nodup_cons] at hnodup
  exact hnodup.2.1.1 (List.mem_map.mpr ⟨p, hp, hsame⟩)

lemma mem_of_requireDimension (h : requireDimension right r = .ok d) :
    d ∈ right.dimensions ∧ d.name = r := by
  have hfound := requireDimension_ok h
  exact ⟨Schema.mem_dimensions.mpr (List.mem_of_find?_eq_some hfound), Schema.name_of_find? hfound⟩

lemma checkPairs_ok (h : checkPairs left right pairs = .ok ()) :
    ∀ p ∈ pairs, ∃ d ∈ left.dimensions, d.name = p.1 := by
  induction pairs with
  | nil => simp
  | cons p rest ih =>
    rw [checkPairs] at h
    obtain ⟨d, hd, h⟩ := bind_eq_ok h
    obtain ⟨-, -, hrest⟩ := bind_eq_ok h
    exact List.forall_mem_cons.mpr ⟨⟨d, mem_of_requireDimension hd⟩, ih hrest⟩

lemma joinDimension_ok (hengine : engine.IntersectsGrids)
    (h : (joinDimension engine right pairs d).outcome = .ok joined) :
    (∀ p ∈ pairs, p.1 ≠ d.name) ∧ joined = d ∨
      ∃ other ∈ right.dimensions, Settled pairs d.name other.name ∧ d.intersect other = .ok joined := by
  unfold joinDimension at h
  split at h
  next hnone =>
    left
    exact ⟨partner?_eq_none.mp hnone, (Except.ok.inj h).symm⟩
  next r hsome =>
    right
    rw [Traced.outcome_bind] at h
    obtain ⟨other, hother, h⟩ := bind_eq_ok h
    rw [Traced.outcome_bind, Traced.outcome_ofExcept, hengine] at h
    obtain ⟨shared, hshared, h⟩ := bind_eq_ok h
    obtain rfl := Except.ok.inj h
    obtain ⟨hmem, rfl⟩ := mem_of_requireDimension hother
    exact ⟨other, hmem, partner?_eq_some.mp hsome, mapError_eq_ok hshared⟩

lemma joinDimensions_ok {ds : List Dimension}
    (h : (joinDimensions engine right pairs ds).outcome = .ok es) :
    (∀ d ∈ ds, ∃ joined, (joinDimension engine right pairs d).outcome = .ok joined) ∧
    ∀ e, e ∈ es ↔ ∃ d ∈ ds, ∃ joined, (joinDimension engine right pairs d).outcome = .ok joined ∧
      e = .dim (joined.rename (engine.conventions.leftPrefix ++ d.name)) := by
  induction ds generalizing es with
  | nil =>
    obtain rfl := Except.ok.inj h
    simp
  | cons d rest ih =>
    rw [joinDimensions, Traced.outcome_bind] at h
    obtain ⟨joined, hjoined, h⟩ := bind_eq_ok h
    rw [Traced.outcome_bind] at h
    obtain ⟨others, hothers, h⟩ := bind_eq_ok h
    obtain rfl := Except.ok.inj h
    obtain ⟨hall, hmem⟩ := ih hothers
    refine ⟨List.forall_mem_cons.mpr ⟨⟨joined, hjoined⟩, hall⟩, ?_⟩
    intro e
    rw [List.mem_cons, hmem]
    simp [hjoined]

end Inference

def Schema.HoldsAs (s : Schema) (name : String) (d : Dimension) : Prop :=
  ∃ k, d.rename (duplicateName name k) ∈ s.dimensions

lemma Schema.holdsAs_of_mem {elements : List Element} {name : String} {d : Dimension}
    (h : .dim (d.rename name) ∈ elements) : (plain (distinct elements)).HoldsAs name d := by
  obtain ⟨k, hk⟩ := exists_mem_distinct h
  exact ⟨k, mem_dimensions.mpr hk⟩

namespace Inference

inductive Joins (left right : Schema) (pairs : List (String × String)) : Dimension → Prop
  | left {l : Dimension} :
      l ∈ left.dimensions → (∀ p ∈ pairs, p.1 ≠ l.name) → Joins left right pairs l
  | right {r : Dimension} :
      r ∈ right.dimensions → (∀ p ∈ pairs, p.2 ≠ r.name) → Joins left right pairs r
  | both {l r d : Dimension} :
      l ∈ left.dimensions → r ∈ right.dimensions → Settled pairs l.name r.name →
      l.intersect r = .ok d → Joins left right pairs d

variable {engine : Engine} {left right out : Schema} {pairs : List (String × String)} {l r : Dimension}

lemma mem_unpaired : r ∈ unpaired right pairs ↔ r ∈ right.dimensions ∧ ∀ p ∈ pairs, p.2 ≠ r.name := by
  simp [unpaired]

lemma dimensionJoin_ok (h : (dimensionJoin engine left right pairs).outcome = .ok out) :
    checkPairs left right pairs = .ok () ∧
    ∃ joined, (joinDimensions engine right pairs left.dimensions).outcome = .ok joined ∧
      out = plain (distinct (joinedElements engine.conventions left right pairs joined)) := by
  obtain ⟨es, ⟨hpairs, joined, hjoined, rfl⟩, rfl⟩ := dimensionJoin_layout h
  exact ⟨hpairs, joined, hjoined, rfl⟩

section Joined

variable (hengine : engine.IntersectsGrids) (h : (dimensionJoin engine left right pairs).outcome = .ok out)

include h

lemma unpaired_held (hr : r ∈ right.dimensions) (hfree : ∀ p ∈ pairs, p.2 ≠ r.name) :
    out.HoldsAs (engine.conventions.rightPrefix ++ r.name) r := by
  obtain ⟨-, joined, -, rfl⟩ := dimensionJoin_ok h
  apply Schema.holdsAs_of_mem
  apply List.mem_append_left
  apply List.mem_append_right
  have hunpaired := List.mem_map_of_mem (f := Element.dim) (mem_unpaired.mpr ⟨hr, hfree⟩)
  exact List.mem_map.mpr ⟨.dim r, List.mem_append_left _ hunpaired, rfl⟩

include hengine

lemma settled_held (hright : right.names.Nodup) (hl : l ∈ left.dimensions) (hr : r ∈ right.dimensions)
    (hsettled : Settled pairs l.name r.name) :
    ∃ d, l.intersect r = .ok d ∧ out.HoldsAs (engine.conventions.leftPrefix ++ l.name) d := by
  obtain ⟨-, joined, hjoined, rfl⟩ := dimensionJoin_ok h
  obtain ⟨hall, hmem⟩ := joinDimensions_ok hjoined
  obtain ⟨d, hd⟩ := hall l hl
  have hpartner := partner?_eq_some.mpr hsettled
  rcases joinDimension_ok hengine hd with ⟨hfree, -⟩ | ⟨other, hother, hsettled', hmet⟩
  · rw [partner?_eq_none.mpr hfree] at hpartner
    cases hpartner
  · obtain rfl : other = r := by
      have hname := Option.some.inj ((partner?_eq_some.mpr hsettled').symm.trans hpartner)
      have hsame := List.inj_on_of_nodup_map hright (Schema.mem_dimensions.mp hother)
        (Schema.mem_dimensions.mp hr) hname
      exact Element.dim.inj hsame
    refine ⟨d, hmet, Schema.holdsAs_of_mem ?_⟩
    apply List.mem_append_left
    apply List.mem_append_left
    exact (hmem _).mpr ⟨l, hl, d, hd, rfl⟩

lemma joined_source {d : Dimension} (hd : d ∈ out.dimensions) :
    ∃ source, Joins left right pairs source ∧ d = source.rename d.name := by
  obtain ⟨-, joined, hjoined, rfl⟩ := dimensionJoin_ok h
  obtain ⟨-, hmem⟩ := joinDimensions_ok hjoined
  obtain ⟨e, he, name, hrename⟩ := Schema.mem_distinct (Schema.mem_dimensions.mp hd)
  rcases List.mem_append.mp he with he | he
  · rcases List.mem_append.mp he with he | he
    · obtain ⟨l, hl, joined, hjoin, rfl⟩ := (hmem e).mp he
      obtain rfl := Element.dim.inj hrename
      refine ⟨joined, ?_, rfl⟩
      rcases joinDimension_ok hengine hjoin with ⟨hfree, rfl⟩ | ⟨r, hr, hsettled, hmet⟩
      · exact .left hl hfree
      · exact .both hl hr hsettled hmet
    · obtain ⟨f, hf, rfl⟩ := List.mem_map.mp he
      rcases List.mem_append.mp hf with hf | hf <;> obtain ⟨r, hr, rfl⟩ := List.mem_map.mp hf
      · obtain rfl := Element.dim.inj hrename
        obtain ⟨hr, hfree⟩ := mem_unpaired.mp hr
        exact ⟨r, .right hr hfree, rfl⟩
      · cases hrename
  · obtain ⟨f, hf, rfl⟩ := List.mem_map.mp he
    obtain ⟨a, -, rfl⟩ := List.mem_map.mp hf
    cases hrename

end Joined

/-- A right dimension is held by a join if no pair names it, or if a pair that names it is the last one to
name its left dimension. Nothing else is held: a pair that is followed by another one with the same left
dimension leaves no trace, which cannot be if no left dimension is named twice. -/
theorem dimensionJoin_accounts (hengine : engine.IntersectsGrids) (hright : right.names.Nodup)
    (h : (dimensionJoin engine left right pairs).outcome = .ok out) :
    (∀ r ∈ right.dimensions, (∀ p ∈ pairs, p.2 ≠ r.name) →
      out.HoldsAs (engine.conventions.rightPrefix ++ r.name) r) ∧
    (∀ l ∈ left.dimensions, ∀ r ∈ right.dimensions, Settled pairs l.name r.name →
      ∃ d, l.intersect r = .ok d ∧ out.HoldsAs (engine.conventions.leftPrefix ++ l.name) d) ∧
    (∀ d ∈ out.dimensions, ∃ source, Joins left right pairs source ∧ d = source.rename d.name) ∧
    ((pairs.map Prod.fst).Nodup → ∀ r ∈ right.dimensions, ∀ p ∈ pairs, p.2 = r.name →
      ∃ l ∈ left.dimensions, l.name = p.1 ∧ ∃ d, l.intersect r = .ok d ∧
        out.HoldsAs (engine.conventions.leftPrefix ++ l.name) d) := by
  refine ⟨fun r hr => unpaired_held h hr, fun l hl r hr => settled_held hengine h hright hl hr,
    fun d hd => joined_source hengine h hd, ?_⟩
  rintro hnodup r hr ⟨name, _⟩ hp rfl
  obtain ⟨hpairs, -⟩ := dimensionJoin_ok h
  obtain ⟨l, hl, rfl⟩ := checkPairs_ok hpairs _ hp
  exact ⟨l, hl, rfl, settled_held hengine h hright hl hr (settled_of_nodup hnodup hp)⟩

def spans : Schema := plain [.dim (.implicit "a" .long 5 20 1), .dim (.implicit "b" .long 0 3 1)]

def clock : Schema := plain [.dim (.implicit "t" .long 0 10 1)]

theorem paired_spans_held : spans.names.Nodup ∧ ([("t", "a")].map Prod.fst).Nodup ∧
    ∃ out, (dimensionJoin ({} : Config) clock spans [("t", "a")]).outcome = .ok out ∧
      out.HoldsAs "right_b" (.implicit "b" .long 0 3 1) ∧
      ∃ d, (Dimension.implicit "t" .long 0 10 1).intersect (.implicit "a" .long 5 20 1) = .ok d ∧
        out.HoldsAs "left_t" d := by
  have hnodup : spans.names.Nodup := by decide
  have hout : (dimensionJoin ({} : Config) clock spans [("t", "a")]).outcome =
      .ok (plain [.dim (.implicit "left_t" .long 5 10 1), .dim (.implicit "right_b" .long 0 3 1)]) := by
    decide +kernel
  obtain ⟨hfree, -, -, hpaired⟩ := dimensionJoin_accounts (fun _ _ => rfl) hnodup hout
  have hb := hfree (.implicit "b" .long 0 3 1) (by decide +kernel) (by decide)
  refine ⟨hnodup, by decide, _, hout, hb, ?_⟩
  obtain ⟨l, hl, -, hheld⟩ := hpaired (by decide) (.implicit "a" .long 5 20 1) (by decide +kernel) _
    List.mem_cons_self rfl
  obtain rfl : l = .implicit "t" .long 0 10 1 := List.mem_singleton.mp hl
  exact hheld

theorem overwritten_pair_lost :
    (dimensionJoin ({} : Config) clock spans [("t", "a"), ("t", "b")]).outcome =
      .ok (plain [.dim (.implicit "left_t" .long 0 3 1)]) ∧
    (Dimension.implicit "t" .long 0 10 1).intersect (.implicit "a" .long 5 20 1) =
      .ok (.implicit "t" .long 5 10 1) ∧
    Dimension.implicit "left_t" .long 0 3 1 ≠ (Dimension.implicit "t" .long 5 10 1).rename "left_t" ∧
    Dimension.implicit "left_t" .long 0 3 1 ≠ (Dimension.implicit "a" .long 5 20 1).rename "left_t" := by
  decide +kernel

end Inference

end TensorSchema
