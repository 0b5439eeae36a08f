import Mathlib
import TensorSchema.Proofs.Conformance
import TensorSchema.Proofs.Double.Order
import TensorSchema.Proofs.Dimension.Points
import TensorSchema.Proofs.Inference.IndexRanges

/-! The bounds of a grid after a subset. Those of the last bound that names it are snapped to its spacing; a
remainder has the sign of the number it is taken of, so negative ends off the grid move outwards. -/

namespace TensorSchema.Inference

variable {b : Bound} {d new : Dimension} {es fs : List Element}

structure Snapped (d : Dimension) (b : Bound) (new : Dimension) : Prop where
  lower_finite : b.lower.isFinite = true
  upper_finite : b.upper.isFinite = true
  hasStep : d.hasStep = true
  nonempty : ¬ (snap b d.spacing).2 < (snap b d.spacing).1
  moved : ∃ length,
    Dimension.lengthBetween (snap b d.spacing).1 (snap b d.spacing).2 d.spacing = some length ∧
    new = { d with
      lower := (snap b d.spacing).1
      upper := (snap b d.spacing).2
      firstIndex := 0
      lastIndex := Dimension.indexBefore length }

lemma narrowGrid_eq_ok : narrowGrid d b = .ok new ↔ Snapped d b new := by
  constructor
  · intro h
    unfold narrowGrid at h
    split at h
    next => cases h
    next hfinite =>
      split at h
      next => cases h
      next hstep =>
        dsimp only at h
        split at h
        next => cases h
        next hnonempty =>
          split at h
          next => cases h
          next length hlength =>
            simp only [Bool.or_eq_true, Bool.not_eq_true', not_or, Bool.not_eq_false] at hfinite hstep
            exact ⟨hfinite.1, hfinite.2, hstep, hnonempty, length, hlength, (Except.ok.inj h).symm⟩
  · rintro ⟨hlower, hupper, hstep, hnonempty, length, hlength, rfl⟩
    simp [narrowGrid, hlower, hupper, hstep, hnonempty, hlength]

lemma narrowDimension_implicit (h : d.isImplicit = true) :
    (narrowDimension d b).outcome = .ok new ↔ Snapped d b new := by
  rw [← narrowGrid_eq_ok, narrowDimension, h, Bool.not_true, if_neg Bool.false_ne_true]
  cases narrowGrid d b with
  | error fault => exact iff_of_false nofun nofun
  | ok narrowed => simp [Except.bind]

def Replaced (b : Bound) (es fs : List Element) : Prop :=
  ∃ before d new after, es = before ++ .dim d :: after ∧
    (∀ other, .dim other ∈ before → other.name ≠ b.dimension) ∧ d.name = b.dimension ∧
    (narrowDimension d b).outcome = .ok new ∧ fs = before ++ .dim new :: after

lemma Replaced.cons {e : Element} (h : Replaced b es fs)
    (he : ∀ other, e = .dim other → other.name ≠ b.dimension) : Replaced b (e :: es) (e :: fs) := by
  obtain ⟨before, d, new, after, rfl, hbefore, hname, hnew, rfl⟩ := h
  refine ⟨e :: before, d, new, after, rfl, ?_, hname, hnew, rfl⟩
  intro other hother
  rcases List.mem_cons.mp hother with hsame | hother
  · exact he other hsame.symm
  · exact hbefore other hother

lemma replaced_of_narrow (h : (narrow b es).outcome = .ok fs) : Replaced b es fs := by
  induction es generalizing fs with
  | nil => cases h
  | cons e rest ih =>
    cases e with
    | dim d =>
      rw [narrow] at h
      split at h
      next hname =>
        rw [Traced.outcome_bind] at h
        obtain ⟨new, hnew, hfs⟩ := bind_eq_ok h
        exact ⟨[], d, new, rest, rfl, by simp, hname, hnew, (Except.ok.inj hfs).symm⟩
      next hname =>
        rw [Traced.outcome_bind] at h
        obtain ⟨others, hothers, hfs⟩ := bind_eq_ok h
        obtain rfl := Except.ok.inj hfs
        apply (ih hothers).cons
        rintro _ ⟨⟩
        exact hname
    | attr a =>
      rw [narrow, Traced.outcome_bind] at h
      obtain ⟨others, hothers, hfs⟩ := bind_eq_ok h
      obtain rfl := Except.ok.inj hfs
      exact (ih hothers).cons (by simp)

lemma narrow_append {before after : List Element}
    (hbefore : ∀ other, .dim other ∈ before → other.name ≠ b.dimension) (hname : d.name = b.dimension)
    (hnew : (narrowDimension d b).outcome = .ok new) :
    (narrow b (before ++ .dim d :: after)).outcome = .ok (before ++ .dim new :: after) := by
  induction before with
  | nil =>
    rw [List.nil_append, narrow, if_pos hname, Traced.outcome_bind, hnew]
    rfl
  | cons e before ih =>
    have ih := ih fun other hother => hbefore other (List.mem_cons_of_mem e hother)
    cases e with
    | dim other =>
      rw [List.cons_append, narrow, if_neg (hbefore other List.mem_cons_self), Traced.outcome_bind, ih]
      rfl
    | attr a =>
      rw [List.cons_append, narrow, Traced.outcome_bind, ih]
      rfl

lemma names_narrow (h : (narrow b es).outcome = .ok fs) :
    fs.map Element.name = es.map Element.name :=
  names_of_narrowed ((narrow_ok h).imp fun _ _ => NarrowedBy.toNarrowed)

lemma narrow_named (h : (narrow b es).outcome = .ok fs) (hnodup : (es.map Element.name).Nodup)
    (hd : .dim d ∈ es) (himplicit : d.isImplicit = true) (hname : d.name = b.dimension) :
    ∃ new, .dim new ∈ fs ∧ Snapped d b new := by
  obtain ⟨before, other, new, after, rfl, -, hother, hnew, rfl⟩ := replaced_of_narrow h
  obtain rfl : d = other := by
    have hsame := List.inj_on_of_nodup_map hnodup hd (List.mem_append_right _ List.mem_cons_self)
      (hname.trans hother.symm)
    exact Element.dim.inj hsame
  exact ⟨new, List.mem_append_right _ List.mem_cons_self, (narrowDimension_implicit himplicit).mp hnew⟩

lemma narrow_other {e : Element} (h : (narrow b es).outcome = .ok fs) (he : e ∈ es)
    (hname : e.name ≠ b.dimension) : e ∈ fs := by
  obtain ⟨before, other, new, after, rfl, -, hother, -, rfl⟩ := replaced_of_narrow h
  rcases List.mem_append.mp he with he | he
  · exact List.mem_append_left _ he
  · rcases List.mem_cons.mp he with rfl | he
    · exact (hname hother).elim
    · exact List.mem_append_right _ (List.mem_cons_of_mem _ he)

def lastBound? (bounds : List Bound) (name : String) : Option Bound :=
  bounds.reverse.find? fun b => b.dimension = name

lemma lastBound?_cons (b : Bound) (rest : List Bound) (name : String) :
    lastBound? (b :: rest) name =
      (lastBound? rest name).or (if b.dimension = name then some b else none) := by
  rw [lastBound?, List.reverse_cons, List.find?_append]
  by_cases h : b.dimension = name <;> simp [lastBound?, h]

lemma narrowAll_dim {bounds : List Bound} (h : (narrowAll bounds es).outcome = .ok fs)
    (hnodup : (es.map Element.name).Nodup) (hd : .dim d ∈ es) (himplicit : d.isImplicit = true) :
    ∃ new, .dim new ∈ fs ∧ new.name = d.name ∧ (lastBound? bounds d.name = none → new = d) ∧
      ∀ b, lastBound? bounds d.name = some b →
        b.lower.isFinite = true ∧ b.upper.isFinite = true ∧ (new.lower, new.upper) = snap b d.spacing := by
  induction bounds generalizing es d with
  | nil =>
    obtain rfl := Except.ok.inj h
    exact ⟨d, hd, rfl, fun _ => rfl, by simp [lastBound?]⟩
  | cons b rest ih =>
    rw [narrowAll, Traced.outcome_bind] at h
    obtain ⟨mid, hmid, hrest⟩ := bind_eq_ok h
    have hnodup' : (mid.map Element.name).Nodup := by rwa [names_narrow hmid]
    rw [lastBound?_cons]
    by_cases hname : b.dimension = d.name
    · obtain ⟨moved, hmoved, hsnapped⟩ := narrow_named hmid hnodup hd himplicit hname.symm
      obtain ⟨length, -, rfl⟩ := hsnapped.moved
      obtain ⟨new, hnew, hsame, hkept, hlast⟩ := ih hrest hnodup' hmoved himplicit
      refine ⟨new, hnew, hsame, ?_⟩
      rw [if_pos hname]
      cases hfound : lastBound? rest d.name with
      | none =>
        obtain rfl := hkept hfound
        refine ⟨by simp, ?_⟩
        rintro _ ⟨⟩
        exact ⟨hsnapped.lower_finite, hsnapped.upper_finite, rfl⟩
      | some last =>
        refine ⟨by simp, ?_⟩
        rintro _ ⟨⟩
        exact hlast last hfound
    · have hd' := narrow_other hmid hd (Ne.symm hname)
      rw [if_neg hname, Option.or_none]
      exact ih hrest hnodup' hd' himplicit

section Remainder

open Double

variable {v s : Float} {a a' c : ℤ}

lemma abs_tmod_le (a c : ℤ) : |a.tmod c| ≤ |a| := by
  rw [Int.abs_eq_natAbs, Int.abs_eq_natAbs, Int.natAbs_tmod]
  exact_mod_cast Nat.mod_le _ _

lemma abs_tdiv_mul_le (a c : ℤ) : |a.tdiv c * c| ≤ |a| := by
  rw [Int.abs_eq_natAbs, Int.abs_eq_natAbs, Int.natAbs_mul, Int.natAbs_tdiv]
  exact_mod_cast Nat.div_mul_le_self _ _

lemma tmod_nonneg_iff (a c : ℤ) : 0 ≤ a.tmod c ↔ 0 ≤ a ∨ c ∣ a := by
  constructor
  · intro h
    by_cases ha : 0 ≤ a
    · exact Or.inl ha
    · right
      have hneg := Int.tmod_nonneg c (a := -a) (by omega)
      rw [Int.neg_tmod] at hneg
      exact Int.dvd_of_tmod_eq_zero (by omega)
  · rintro (ha | ha)
    · exact Int.tmod_nonneg c ha
    · exact (Int.tmod_eq_zero_of_dvd ha).ge

lemma value?_remainder (hv : value? v = some (a : ℚ)) (hs : value? s = some (c : ℚ)) (ha : |a| < 2 ^ 53)
    (hc : 0 < c) : value? (remainder v s) = some ((a.tmod c : ℤ) : ℚ) := by
  have hc' : (c : ℚ) ≠ 0 := by exact_mod_cast hc.ne'
  have hsmall : |(a : ℚ) / c| ≤ greatest := by
    have ha' : |(a : ℚ)| ≤ 2 ^ 53 := by exact_mod_cast ha.le
    have hone : (1 : ℚ) ≤ |(c : ℚ)| := by exact_mod_cast Int.one_le_abs hc.ne'
    apply le_greatest
    rw [abs_div]
    linarith [div_le_self (abs_nonneg (a : ℚ)) hone]
  obtain ⟨r, hr, hnearest⟩ := (rounded_div hv hs hc').finite hsmall
  have htrunc := value?_trunc hr
  rw [truncated_nearest ha hc hnearest] at htrunc
  have hproduct := value?_mul htrunc hs ((abs_tdiv_mul_le a c).trans ha.le)
  have hrest : a - a.tdiv c * c = a.tmod c := by rw [Int.tmod_def, mul_comm]
  have := value?_sub hv hproduct (by rw [hrest]; exact (abs_tmod_le a c).trans ha.le)
  rwa [hrest] at this

lemma remainder_nonneg_iff (hv : whole? v = some a) (hs : whole? s = some c) (ha : |a| < 2 ^ 53)
    (hc : 0 < c) : 0 ≤ remainder v s ↔ 0 ≤ a ∨ c ∣ a := by
  rw [whole?_eq_some] at hv hs
  rw [le_iff value?_zero (value?_remainder hv hs ha hc), ← tmod_nonneg_iff, Int.cast_nonneg_iff]

section Snap

variable (hl : value? b.lower = some (a : ℚ)) (hu : value? b.upper = some (a' : ℚ))
  (hs : value? d.spacing = some (c : ℚ)) (ha : |a| < 2 ^ 52) (ha' : |a'| < 2 ^ 52) (hc : 0 < c)

include hl hu hs ha ha' hc

lemma value?_snap :
    value? (snap b d.spacing).1 = some ((a + a.tmod c : ℤ) : ℚ) ∧
      value? (snap b d.spacing).2 = some ((a' - a'.tmod c : ℤ) : ℚ) := by
  have hrest := abs_tmod_le a c
  have hrest' := abs_tmod_le a' c
  constructor
  · refine value?_add hl (value?_remainder hl hs (by omega) hc) ?_
    exact (abs_add_le _ _).trans (by omega)
  · refine value?_sub hu (value?_remainder hu hs (by omega) hc) ?_
    exact (abs_sub _ _).trans (by omega)

lemma exists_snapped_iff : (∃ new, Snapped d b new) ↔ a + a.tmod c ≤ a' - a'.tmod c := by
  obtain ⟨hsnap, hsnap'⟩ := value?_snap hl hu hs ha ha' hc
  have hordered : ¬ (snap b d.spacing).2 < (snap b d.spacing).1 ↔ a + a.tmod c ≤ a' - a'.tmod c := by
    rw [lt_iff hsnap' hsnap, not_lt, Int.cast_le]
  constructor
  · rintro ⟨new, hnew⟩
    exact hordered.mp hnew.nonempty
  · intro hle
    have hrest := (abs_tmod_le a c).trans_lt ha
    have hrest' := (abs_tmod_le a' c).trans_lt ha'
    rw [abs_lt] at ha ha' hrest hrest'
    have hwidth : a' - a'.tmod c - (a + a.tmod c) ≤ 2 ^ 60 := by omega
    obtain ⟨length, hlength⟩ := Dimension.lengthBetween_of_le hsnap hs hc hsnap' hle hwidth
    exact ⟨_, isFinite_of_value? hl, isFinite_of_value? hu, Dimension.hasStep_of_whole hs hc,
      hordered.mpr hle, length, hlength, rfl⟩

end Snap

end Remainder

section Subset

open Double Schema

variable {input out : Schema} {bounds : List Bound}

lemma outcome_subset (input : Schema) (bounds : List Bound) :
    (subset input bounds).outcome =
      (narrowAll bounds (distinct input.elements)).outcome.map fun es =>
        Conformance.propagate input (plain es) := by
  rw [subset, copy_structural, Traced.outcome_bind]
  change (narrowAll bounds (distinct input.elements)).outcome.bind _ = _
  cases (narrowAll bounds (distinct input.elements)).outcome <;> rfl

lemma subset_dim (h : (subset input bounds).outcome = .ok out)
    (hd : d ∈ (input.copy .structural).dimensions) (himplicit : d.isImplicit = true) :
    ∃ new, out.dimension? d.name = some new ∧ (lastBound? bounds d.name = none → new = d) ∧
      ∀ b, lastBound? bounds d.name = some b →
        b.lower.isFinite = true ∧ b.upper.isFinite = true ∧ (new.lower, new.upper) = snap b d.spacing := by
  rw [outcome_subset] at h
  obtain ⟨es, hes, rfl⟩ := map_eq_ok h
  rw [copy_structural, mem_dimensions] at hd
  obtain ⟨new, hnew, hname, hkept, hmoved⟩ := narrowAll_dim hes (nodup_distinct _) hd himplicit
  refine ⟨new, ?_, hkept, hmoved⟩
  rw [← hname]
  apply dimension?_of_mem
  · rw [Conformance.names_propagate]
    change (es.map Element.name).Nodup
    rw [names_of_narrowed (narrowAll_ok hes)]
    exact nodup_distinct _
  · rw [Conformance.elements_propagate]
    exact hnew

lemma subset_succeeds_iff (hd : d ∈ (input.copy .structural).dimensions)
    (himplicit : d.isImplicit = true) (hname : d.name = b.dimension) :
    (∃ out, (subset input [b]).outcome = .ok out) ↔ ∃ new, Snapped d b new := by
  rw [copy_structural, mem_dimensions] at hd
  have hone : ∀ es, (narrowAll [b] es).outcome = (narrow b es).outcome := by
    intro es
    rw [narrowAll, Traced.outcome_bind]
    cases (narrow b es).outcome <;> rfl
  rw [outcome_subset, hone]
  constructor
  · rintro ⟨out, hout⟩
    obtain ⟨es, hes, -⟩ := map_eq_ok hout
    obtain ⟨new, -, hnew⟩ := narrow_named hes (nodup_distinct _) hd himplicit hname
    exact ⟨new, hnew⟩
  · rintro ⟨new, hnew⟩
    obtain ⟨before, after, hsplit⟩ := List.append_of_mem hd
    have hnodup := nodup_distinct input.elements
    change distinct input.elements = _ at hsplit
    rw [hsplit] at hnodup ⊢
    rw [narrow_append ?_ hname ((narrowDimension_implicit himplicit).mpr hnew)]
    · exact ⟨_, rfl⟩
    · intro other hother hsame
      rw [List.map_append, List.nodup_append] at hnodup
      exact hnodup.2.2 other.name (List.mem_map_of_mem (f := Element.name) hother) d.name
        (List.mem_map_of_mem (f := Element.name) List.mem_cons_self) (hsame.trans hname.symm)

structure Inward (d : Dimension) (b : Bound) : Prop where
  lower_le : d.lower ≤ b.lower
  upper_le : b.upper ≤ d.upper
  lower_rest : 0 ≤ remainder b.lower d.spacing
  upper_rest : 0 ≤ remainder b.upper d.spacing

theorem subset_narrows (h : (subset input bounds).outcome = .ok out)
    (hd : d ∈ (input.copy .structural).dimensions) (himplicit : d.isImplicit = true) :
    ∃ new, out.dimension? d.name = some new ∧ (lastBound? bounds d.name = none → new = d) ∧
      (∀ b, lastBound? bounds d.name = some b → (new.lower, new.upper) = snap b d.spacing) ∧
      ((∀ b, lastBound? bounds d.name = some b → Inward d b) →
        ¬ new.lower < d.lower ∧ ¬ d.upper < new.upper) := by
  obtain ⟨new, hnew, hkept, hmoved⟩ := subset_dim h hd himplicit
  refine ⟨new, hnew, hkept, fun b hlast => (hmoved b hlast).2.2, ?_⟩
  intro hinward
  cases hlast : lastBound? bounds d.name with
  | none =>
    obtain rfl := hkept hlast
    exact ⟨not_lt_self _, not_lt_self _⟩
  | some b =>
    obtain ⟨hlower, hupper, hbounds⟩ := hmoved b hlast
    obtain ⟨hle, hge, hrest, hrest'⟩ := hinward b hlast
    obtain ⟨p, hp⟩ := value?_of_isFinite hlower
    obtain ⟨q, hq⟩ := value?_of_isFinite hupper
    have hlower' : new.lower = b.lower + remainder b.lower d.spacing := congrArg Prod.fst hbounds
    have hupper' : new.upper = b.upper - remainder b.upper d.spacing := congrArg Prod.snd hbounds
    rw [hlower', hupper']
    exact ⟨not_add_lt hp hrest hle, not_lt_sub hq hrest' hge⟩

def axis (lower upper spacing : Float) : Schema :=
  plain [.dim (.implicit "x" .int lower upper spacing)]

theorem bounded_twice_narrows : Inward (.implicit "x" .int 0 100 5) ⟨"x", 12, 38⟩ ∧
    ∃ out new, (subset (axis 0 100 5) [⟨"x", -50, 500⟩, ⟨"x", 12, 38⟩]).outcome = .ok out ∧
      out.dimension? "x" = some new ∧ ¬ new.lower < 0 ∧ ¬ 100 < new.upper ∧
      (new.lower, new.upper) = (14, 35) := by
  have hfive : whole? 5 = some 5 := by decide +kernel
  have hinward : Inward (.implicit "x" .int 0 100 5) ⟨"x", 12, 38⟩ := by
    have hlower : whole? 12 = some 12 := by decide +kernel
    have hupper : whole? 38 = some 38 := by decide +kernel
    refine ⟨by decide +kernel, by decide +kernel, ?_, ?_⟩
    · exact (remainder_nonneg_iff hlower hfive (by norm_num) (by norm_num)).mpr (by norm_num)
    · exact (remainder_nonneg_iff hupper hfive (by norm_num) (by norm_num)).mpr (by norm_num)
  have hout : (subset (axis 0 100 5) [⟨"x", -50, 500⟩, ⟨"x", 12, 38⟩]).outcome = .ok (axis 14 35 5) := by
    decide +kernel
  have hd : Dimension.implicit "x" .int 0 100 5 ∈ ((axis 0 100 5).copy .structural).dimensions := by
    decide +kernel
  have hsnap : snap ⟨"x", 12, 38⟩ 5 = (14, 35) := by decide +kernel
  obtain ⟨new, hnew, -, hbounds, hnarrow⟩ := subset_narrows hout hd rfl
  obtain ⟨hlower, hupper⟩ := hnarrow (by
    rintro _ ⟨⟩
    exact hinward)
  exact ⟨hinward, _, new, hout, hnew, hlower, hupper, (hbounds _ rfl).trans hsnap⟩

def Widens (lower upper spacing : Float) (b : Bound) : Prop :=
  ∃ lower' upper', (subset (axis lower upper spacing) [b]).outcome = .ok (axis lower' upper' spacing) ∧
    (lower' < lower ∨ upper < upper')

/-- A bound outside the range is not cut to it. A bound that repeats the range can widen it too: where an
end is negative and off the grid, and where a remainder is negative since the quotient is rounded up. -/
theorem subset_widens : Widens 0 10 1 ⟨"x", -5, 20⟩ ∧ Widens (-12) 38 5 ⟨"x", -12, 38⟩ ∧
    Widens 1.7 3.3 0.1 ⟨"x", 1.7, 3.3⟩ :=
  ⟨⟨-5, 20, by decide +kernel, Or.inl (by decide +kernel)⟩,
    ⟨-14, 35, by decide +kernel, Or.inl (by decide +kernel)⟩,
    ⟨1.7 + remainder 1.7 0.1, 3.3 - remainder 3.3 0.1, by decide +kernel, Or.inl (by decide +kernel)⟩⟩

/-- On whole numbers a subset succeeds exactly if the snapped ends are in order. They stay within the bound
exactly where an end is not negative or lies on the grid. -/
theorem subset_within_bound {lower upper spacing : ℤ} (hd : d ∈ (input.copy .structural).dimensions)
    (himplicit : d.isImplicit = true) (hname : d.name = b.dimension)
    (hspacing : whole? d.spacing = some spacing) (hpos : 0 < spacing)
    (hlower : whole? b.lower = some lower) (hupper : whole? b.upper = some upper)
    (hlow : |lower| < 2 ^ 52) (hhigh : |upper| < 2 ^ 52) :
    ((∃ out, (subset input [b]).outcome = .ok out) ↔
      lower + lower.tmod spacing ≤ upper - upper.tmod spacing) ∧
    ∀ out, (subset input [b]).outcome = .ok out → ∃ new, out.dimension? d.name = some new ∧
      whole? new.lower = some (lower + lower.tmod spacing) ∧
      whole? new.upper = some (upper - upper.tmod spacing) ∧
      (b.lower ≤ new.lower ↔ 0 ≤ lower ∨ spacing ∣ lower) ∧
      (new.upper ≤ b.upper ↔ 0 ≤ upper ∨ spacing ∣ upper) := by
  rw [whole?_eq_some] at hspacing hlower hupper
  rw [subset_succeeds_iff hd himplicit hname, exists_snapped_iff hlower hupper hspacing hlow hhigh hpos]
  refine ⟨Iff.rfl, ?_⟩
  intro out hout
  obtain ⟨hsnap, hsnap'⟩ := value?_snap hlower hupper hspacing hlow hhigh hpos
  obtain ⟨new, hnew, -, hmoved⟩ := subset_dim hout hd himplicit
  obtain ⟨-, -, hbounds⟩ := hmoved b (by simp [lastBound?, hname])
  have hlower' : new.lower = (snap b d.spacing).1 := congrArg Prod.fst hbounds
  have hupper' : new.upper = (snap b d.spacing).2 := congrArg Prod.snd hbounds
  rw [← hlower'] at hsnap
  rw [← hupper'] at hsnap'
  refine ⟨new, hnew, whole?_eq_some.mpr hsnap, whole?_eq_some.mpr hsnap', ?_, ?_⟩
  · rw [le_iff hlower hsnap, ← tmod_nonneg_iff, Int.cast_le, le_add_iff_nonneg_right]
  · rw [le_iff hsnap' hupper, ← tmod_nonneg_iff, Int.cast_le, sub_le_self_iff]

theorem mixed_bound_within : whole? (-15) = some (-15) ∧ whole? 12 = some 12 ∧
    ∃ out new, (subset (axis (-100) 100 5) [⟨"x", -15, 12⟩]).outcome = .ok out ∧
      out.dimension? "x" = some new ∧ whole? new.lower = some (-15) ∧ whole? new.upper = some 10 ∧
      -15 ≤ new.lower ∧ new.upper ≤ 12 := by
  have hlower : whole? (-15) = some (-15) := by decide +kernel
  have hupper : whole? 12 = some 12 := by decide +kernel
  have hd : Dimension.implicit "x" .int (-100) 100 5 ∈
      ((axis (-100) 100 5).copy .structural).dimensions := by
    decide +kernel
  obtain ⟨hsucceeds, hbounds⟩ := subset_within_bound (b := ⟨"x", -15, 12⟩) hd rfl rfl
    (by decide +kernel : whole? 5 = some 5) (by norm_num) hlower hupper (by norm_num) (by norm_num)
  obtain ⟨out, hout⟩ := hsucceeds.mpr (by decide)
  obtain ⟨new, hnew, hnewLower, hnewUpper, hle, hge⟩ := hbounds out hout
  exact ⟨hlower, hupper, out, new, hout, hnew, hnewLower, hnewUpper, hle.mpr (Or.inr (by decide)),
    hge.mpr (Or.inl (by decide))⟩

theorem negative_bound_left :
    (subset (axis (-100) 100 5) [⟨"x", -12, -3⟩]).outcome = .ok (axis (-14) 0 5) ∧
    (-14 : Float) < -12 ∧ (-3 : Float) < 0 := by
  decide +kernel

end Subset

end TensorSchema.Inference
