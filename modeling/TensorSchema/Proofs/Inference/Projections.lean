import Mathlib
import TensorSchema.Proofs.Inference.Results

namespace TensorSchema.Inference

open Schema Conformance

variable {conventions : Conventions} {s t mid : Schema} {name : String} {names first second : List String}
  {es : List Element}

lemma LookedUp.exists_mem (h : LookedUp t names es) (hname : name ∈ names) :
    ∃ e ∈ es, t.element? name = some e := by
  induction h with
  | nil => cases hname
  | cons hfound _ ih =>
    rcases List.mem_cons.mp hname with rfl | hname
    · exact ⟨_, List.mem_cons_self, hfound⟩
    · obtain ⟨e, he, hfound⟩ := ih hname
      exact ⟨e, List.mem_cons_of_mem _ he, hfound⟩

lemma LookedUp.element?_plain (h : LookedUp t names es) (hnodup : names.Nodup) (hname : name ∈ names) :
    (plain es).element? name = t.element? name := by
  obtain ⟨e, he, hfound⟩ := h.exists_mem hname
  have hdistinct : (plain es).names.Nodup := by
    rw [← h.names_eq] at hnodup
    exact hnodup
  rw [hfound, ← name_of_find? hfound]
  exact element?_of_mem hdistinct he

lemma LookedUp.of_subset (h : LookedUp t first es) (hsub : second ⊆ first) : ∃ fs, LookedUp t second fs := by
  induction second with
  | nil => exact ⟨[], .nil⟩
  | cons name rest ih =>
    obtain ⟨hname, hrest⟩ := List.cons_subset.mp hsub
    obtain ⟨e, _, hfound⟩ := h.exists_mem hname
    obtain ⟨fs, hfs⟩ := ih hrest
    exact ⟨e :: fs, .cons hfound hfs⟩

lemma LookedUp.congr (h : LookedUp t names es) (hsame : ∀ name ∈ names, s.element? name = t.element? name) :
    LookedUp s names es := by
  induction h with
  | nil => exact .nil
  | cons hfound _ ih =>
    obtain ⟨hname, hrest⟩ := List.forall_mem_cons.mp hsame
    exact .cons (hname.trans hfound) (ih hrest)

lemma mapM_requireElement (h : LookedUp t names es) : names.mapM (requireElement t) = .ok es := by
  induction h with
  | nil => rfl
  | cons hfound _ ih =>
    rw [List.mapM_cons, ih, requireElement, hfound]
    rfl

lemma select_lookedUp (h : LookedUp t names es) (hkept : ∀ d ∈ t.dimensions, d.name ∈ names) :
    (select conventions t names).outcome = .ok (propagate t (plain (distinct es))) := by
  have hkeeps := keepsDimensions_iff.mpr hkept
  have hselected : selected conventions t names = .ok es := by
    rw [selected, mapM_requireElement h]
    simp only [bind, Except.bind, hkeeps, if_true]
    rfl
  rw [select, Traced.outcome_bind, Traced.outcome_ofExcept, hselected, ← pushAll_new]
  rfl

lemma select_distinct (hnodup : names.Nodup) (hkept : ∀ d ∈ t.dimensions, d.name ∈ names)
    (h : (select conventions t names).outcome = .ok mid) :
    ∃ es, LookedUp t names es ∧ mid = propagate t (plain es) := by
  obtain ⟨chosen, hchosen, -⟩ := select_ok h
  obtain ⟨es, hes, -⟩ := selected_cases hchosen
  refine ⟨es, hes, ?_⟩
  rw [select_lookedUp hes hkept, distinct_of_nodup (hes.names_eq ▸ hnodup)] at h
  exact (Except.ok.inj h).symm

/-- Two projections in a row have the elements of the second alone. They have its type and its roles exactly
if it binds no role to a name that the first left out, as it does not if it repeats no name. -/
theorem select_select (hnodup : first.Nodup) (hkept : ∀ d ∈ t.dimensions, d.name ∈ second)
    (hsub : second ⊆ first) (h : (select conventions t first).outcome = .ok mid) :
    ∃ out direct, (select conventions mid second).outcome = .ok out ∧
      (select conventions t second).outcome = .ok direct ∧ out.elements = direct.elements ∧
      (out = direct ↔
        ∀ role element, direct.roles.find? role = some element → element ∈ first) ∧
      (second.Nodup → out = direct) := by
  obtain ⟨found, hfound, rfl⟩ := select_distinct hnodup (fun d hd => hsub (hkept d hd)) h
  obtain ⟨es, hes⟩ := hfound.of_subset hsub
  have hnames : (plain found).names = first := hfound.names_eq
  have hagain : LookedUp (propagate t (plain found)) second es := by
    apply hes.congr
    intro name hname
    rw [element?, elements_propagate]
    exact hfound.element?_plain hnodup (hsub hname)
  have hkeptAgain : ∀ d ∈ (propagate t (plain found)).dimensions, d.name ∈ second := by
    intro d hd
    rw [mem_dimensions, elements_propagate] at hd
    exact hkept d (mem_dimensions.mpr (List.mem_of_find?_eq_some (hfound.element?_eq _ hd)))
  refine ⟨_, _, select_lookedUp hagain hkeptAgain, select_lookedUp hes hkept, ?_, ?_, ?_⟩
  · rw [elements_propagate, elements_propagate]
  · rw [propagate_propagate_iff, hnames]
  · intro hsecond
    have hdistinct : distinct es = es := distinct_of_nodup (hes.names_eq ▸ hsecond)
    have hsame : (plain es).names = second := hes.names_eq
    apply propagate_propagate rfl
    rwa [hdistinct, hsame, hnames]

def twin (value : String) : Schema := (Schema.new "twin").edited
  [.push (.dim (.implicit "x" .int 0 3 1)), .push (.attr ⟨"v", .float⟩), .push (.attr ⟨"v-new", .int⟩),
    .withType measurement, .bindRole "value" value, .bindRole "error" "v-new"]

theorem twin_select_select : ["x", "v", "v-new"].Nodup ∧
    (∀ d ∈ (twin "v").dimensions, d.name ∈ ["v", "x", "v"]) ∧ ["v", "x", "v"] ⊆ ["x", "v", "v-new"] ∧
    ∃ mid out, (select {} (twin "v") ["x", "v", "v-new"]).outcome = .ok mid ∧
      (select {} mid ["v", "x", "v"]).outcome = .ok out ∧
      (select {} (twin "v") ["v", "x", "v"]).outcome = .ok out ∧
      out.names = ["v", "x", "v-new"] ∧ out.nominal = some measurement ∧
      out.roles.find? "error" = some "v-new" := by
  have hnodup : ["x", "v", "v-new"].Nodup := by decide
  have hkept : ∀ d ∈ (twin "v").dimensions, d.name ∈ ["v", "x", "v"] := by decide
  have hsub : ["v", "x", "v"] ⊆ ["x", "v", "v-new"] := by decide
  let mid : Schema := { twin "v" with name := "" }
  have hmid : (select {} (twin "v") ["x", "v", "v-new"]).outcome = .ok mid := by decide
  obtain ⟨out, direct, hout, hdirect, -, hsame, -⟩ := select_select hnodup hkept hsub hmid
  have hdirect' : (select {} (twin "v") ["v", "x", "v"]).outcome = .ok { twin "v" with
      name := ""
      elements := [.attr ⟨"v", .float⟩, .dim (.implicit "x" .int 0 3 1), .attr ⟨"v-new", .float⟩] } := by
    decide
  obtain rfl := Except.ok.inj (hdirect.symm.trans hdirect')
  have hentries : ∀ entry ∈ (twin "v").roles.entries, entry.2 ∈ ["x", "v", "v-new"] := by decide
  obtain rfl := hsame.mpr fun role element hbound => hentries _ (NameMap.find?_eq_some_iff.mp hbound)
  exact ⟨hnodup, hkept, hsub, mid, _, hmid, hout, hdirect, by decide⟩

/-- The second `v` is called like the element that the first projection leaves out. The projection of the
input gives it the roles of that element, a mandatory one and with it the type among them. -/
theorem repeated_name_regains_roles : ["x", "v"].Nodup ∧ ["x", "v", "v"] ⊆ ["x", "v"] ∧
    (∀ value ∈ ["v", "v-new"], (twin value).names.Nodup ∧
      ∀ d ∈ (twin value).dimensions, d.name ∈ ["x", "v"] ∧ d.name ∈ ["x", "v", "v"]) ∧
    (∃ mid out direct, (select {} (twin "v") ["x", "v"]).outcome = .ok mid ∧
      (select {} mid ["x", "v", "v"]).outcome = .ok out ∧
      (select {} (twin "v") ["x", "v", "v"]).outcome = .ok direct ∧
      out.roles.find? "error" = none ∧ direct.roles.find? "error" = some "v-new") ∧
    ∃ mid out direct, (select {} (twin "v-new") ["x", "v"]).outcome = .ok mid ∧
      (select {} mid ["x", "v", "v"]).outcome = .ok out ∧
      (select {} (twin "v-new") ["x", "v", "v"]).outcome = .ok direct ∧
      out.nominal = none ∧ direct.nominal = some measurement := by
  refine ⟨by decide, by decide, by decide, ?_, ?_⟩
  · refine ⟨_, _, _, rfl, rfl, rfl, ?_⟩
    decide
  · refine ⟨_, _, _, rfl, rfl, rfl, ?_⟩
    decide

end TensorSchema.Inference
