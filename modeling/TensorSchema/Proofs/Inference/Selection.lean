import Mathlib
import TensorSchema.Proofs.Conformance
import TensorSchema.Proofs.Inference.Layout
import TensorSchema.Proofs.Schema.Cells

namespace TensorSchema.Inference

open Schema Double

variable {conventions : Conventions} {input out : Schema} {kept : List String} {es : List Element}
  {cells : Int64}

section Projection

lemma LookedUp.dimensions_eq (h : LookedUp input kept es) : (plain es).dimensions = input.picked kept := by
  induction h with
  | nil => rfl
  | @cons name e _ _ hfound _ ih =>
    have hname : input.dimension? name = e.dimension? := by
      rw [dimension?, hfound]
      rfl
    simp only [dimensions, plain, picked, List.filterMap_cons, hname] at ih ⊢
    rw [ih]

lemma lengths_projected (hkept : ∀ d ∈ input.dimensions, d.name ∈ kept)
    (h : (select conventions input kept).outcome = .ok out) :
    out.dimensions.map Dimension.length? = (input.picked kept).map Dimension.length? := by
  have hkeeps := keepsDimensions_iff.mpr hkept
  obtain ⟨chosen, hchosen, rfl⟩ := select_ok h
  obtain ⟨found, hfound, ⟨-, rfl⟩ | ⟨hlost, -⟩⟩ := selected_cases hchosen
  · rw [← hfound.dimensions_eq, ← lengths_distinct, dimensions, Conformance.elements_propagate]
    rfl
  · rw [hkeeps] at hlost
    cases hlost

/-- A projection has as many dimensions as its input exactly if it names none of them twice, and as many
cells exactly if it names none twice that is longer than one. -/
theorem select_keeps_shape (hnodup : input.names.Nodup)
    (hpopulated : ∀ d ∈ input.dimensions, d.Populated)
    (hkept : ∀ d ∈ input.dimensions, d.name ∈ kept)
    (h : (select conventions input kept).outcome = .ok out) :
    (out.dimensions.length = input.dimensions.length ↔
      ∀ d ∈ input.dimensions, kept.count d.name = 1) ∧
    (out.cellCount = input.cellCount ↔
      input.cellCount = none ∨
        ∀ d ∈ input.dimensions, d.length? = some 1 ∨ kept.count d.name = 1) := by
  have hlengths := lengths_projected hkept h
  constructor
  · have hcount := congrArg List.length hlengths
    rw [List.length_map, List.length_map] at hcount
    rw [hcount, length_picked_eq_iff hnodup hkept]
  · rw [← cellProduct_picked_eq_iff hnodup hkept hpopulated, cellCount, cellProduct_congr hlengths]

def box (width height : Float) : Schema :=
  plain [.dim (.implicit "x" .long 1 width 1), .dim (.implicit "y" .long 1 height 1), .attr ⟨"v", .float⟩]

theorem turned_box_shape : (box 4 5).names.Nodup ∧ (∀ d ∈ (box 4 5).dimensions, d.Populated) ∧
    (∀ d ∈ (box 4 5).dimensions, d.name ∈ ["v", "y", "v", "x"]) ∧
    ∃ out, (select {} (box 4 5) ["v", "y", "v", "x"]).outcome = .ok out ∧
      out.names = ["v", "y", "v-new", "x"] ∧ out.dimensions.length = 2 ∧
      out.cellCount = (box 4 5).cellCount := by
  have hnodup : (box 4 5).names.Nodup := by decide
  have hpopulated : ∀ d ∈ (box 4 5).dimensions, d.Populated := by decide
  have hkept : ∀ d ∈ (box 4 5).dimensions, d.name ∈ ["v", "y", "v", "x"] := by decide
  have honce : ∀ d ∈ (box 4 5).dimensions, ["v", "y", "v", "x"].count d.name = 1 := by decide
  let out : Schema := plain [.attr ⟨"v", .float⟩, .dim (.implicit "y" .long 1 5 1),
    .attr ⟨"v-new", .float⟩, .dim (.implicit "x" .long 1 4 1)]
  have hout : (select {} (box 4 5) ["v", "y", "v", "x"]).outcome = .ok out := by decide
  obtain ⟨hdimensions, hcells⟩ := select_keeps_shape hnodup hpopulated hkept hout
  exact ⟨hnodup, hpopulated, hkept, out, hout, rfl, hdimensions.mpr honce,
    hcells.mpr (Or.inr fun d hd => Or.inr (honce d hd))⟩

theorem repeated_dimension_reshapes : (box 4 5).names.Nodup ∧
    (∀ d ∈ (box 4 5).dimensions, d.Populated) ∧ (∀ d ∈ (box 4 5).dimensions, d.name ∈ ["x", "y", "x"]) ∧
    ∃ out, (select {} (box 4 5) ["x", "y", "x"]).outcome = .ok out ∧
      out.dimensions.length = 3 ∧ (box 4 5).dimensions.length = 2 ∧
      out.cellCount = some 80 ∧ (box 4 5).cellCount = some 20 := by
  refine ⟨by decide, by decide, by decide, plain [.dim (.implicit "x" .long 1 4 1),
    .dim (.implicit "y" .long 1 5 1), .dim (.implicit "x-new" .long 1 4 1)], ?_⟩
  decide

end Projection

section Flattening

lemma steps_cellDimension (cells : Int64) : ∃ upper steps,
    Nearest cells.toInt upper ∧ Nearest (upper - 1) steps ∧
      value? ((ofInt cells.toInt - 1) / 1) = some steps := by
  have hlow := cells.le_toInt
  have hhigh := cells.toInt_lt
  obtain ⟨upper, hupper, hnearest⟩ := nearest_ofInt (i := cells.toInt) (by rw [abs_lt]; omega)
  have hlimit : Representable (2 ^ 63) := by
    exact_mod_cast representable_two_zpow (e := 63) (by norm_num)
  have habove := hnearest.ge hlimit.neg (by exact_mod_cast hlow)
  have hbelow := hnearest.le hlimit (by exact_mod_cast hhigh.le)
  have hfinite : |upper - 1| ≤ greatest := by
    apply le_greatest
    rw [abs_le]
    constructor <;> linarith
  obtain ⟨steps, hsteps, hnearest'⟩ := (rounded_sub hupper value?_one).finite hfinite
  refine ⟨upper, steps, hnearest, hnearest', ?_⟩
  have hquotient := rounded_div hsteps value?_one one_ne_zero
  rw [div_one] at hquotient
  exact hquotient.exact (representable_of_value? hsteps) (abs_le_greatest hsteps)

lemma length?_cellDimension (hlow : -2 ^ 53 < cells.toInt) (hhigh : cells.toInt ≤ 2 ^ 53) :
    (cellDimension conventions cells).length? = some cells := by
  obtain ⟨upper, steps, hupper, hsteps, hvalue⟩ := steps_cellDimension cells
  obtain rfl := hupper.eq (representable_int (by rw [abs_le]; omega))
  have hwidth : (cells.toInt : ℚ) - 1 = ((cells.toInt - 1 : ℤ) : ℚ) := by push_cast; ring
  rw [hwidth] at hsteps
  obtain rfl := hsteps.eq (representable_int (by rw [abs_le]; omega))
  obtain ⟨n, hn, hlength⟩ := Dimension.lengthBetween_of_steps hvalue (by
    rw [truncated_intCast, abs_lt]
    omega)
  rw [truncated_intCast, sub_add_cancel, Int64.toInt_inj] at hlength
  rw [hlength] at hn
  exact hn

lemma range_of_even (heven : 2 ∣ cells.toInt)
    (hlength : (cellDimension conventions cells).length? = some cells) :
    -2 ^ 53 < cells.toInt ∧ cells.toInt ≤ 2 ^ 53 := by
  obtain ⟨upper, steps, hupper, hsteps, hvalue⟩ := steps_cellDimension cells
  have hcells := Dimension.toInt_lengthBetween hlength hvalue
  by_contra hrange
  have hlimit : Representable (2 ^ 53) := ⟨2 ^ 53, 0, by norm_num, by norm_num, by norm_num⟩
  have hfar : 2 ^ 53 ≤ |steps| := by
    rw [le_abs]
    rcases le_or_gt cells.toInt (-2 ^ 53) with hlow | hlow
    · right
      have hupper' := hupper.le hlimit.neg (by exact_mod_cast hlow)
      have hsteps' := hsteps.le hlimit.neg (by linarith)
      linarith
    · left
      have hnext : Representable (2 ^ 53 + 2) := ⟨2 ^ 52 + 1, 1, by norm_num, by norm_num, by norm_num⟩
      have hhigh : 2 ^ 53 + 2 ≤ cells.toInt := by omega
      have hupper' := hupper.ge hnext (by exact_mod_cast hhigh)
      exact hsteps.ge hlimit (by linarith)
  obtain ⟨k, rfl⟩ := hsteps.1.even hfar
  rw [truncated_intCast] at hcells
  omega

lemma distinct_cons (e : Element) (es : List Element) : ∃ rest, distinct (e :: es) = e :: rest := by
  have hone : distinct [e] = [e] := distinct_of_nodup (List.nodup_singleton _)
  obtain ⟨rest, hrest⟩ := distinct_extends [e] es
  rw [hone] at hrest
  exact ⟨rest, hrest.symm⟩

/-- A flattened selection starts with a dimension that counts the cells, up to `2 ^ 53` of them. An even
number of cells beyond that is never counted. -/
theorem select_spans_cells (h : (select conventions input kept).outcome = .ok out)
    (hflat : keepsDimensions input kept = false) :
    ∃ cells d rest, input.cellCount = some cells ∧ out.elements = .dim d :: rest ∧
      d.name = conventions.syntheticDimension ∧ d.type = .long ∧
      (-2 ^ 53 < cells.toInt ∧ cells.toInt ≤ 2 ^ 53 → d.length? = input.cellCount) ∧
      (2 ∣ cells.toInt → d.length? = input.cellCount →
        -2 ^ 53 < cells.toInt ∧ cells.toInt ≤ 2 ^ 53) := by
  obtain ⟨chosen, hchosen, rfl⟩ := select_ok h
  rw [Conformance.elements_propagate]
  obtain ⟨found, -, ⟨hkeeps, -⟩ | ⟨-, cells, hcells, rfl⟩⟩ := selected_cases hchosen
  · rw [hflat] at hkeeps
    cases hkeeps
  · obtain ⟨rest, hrest⟩ := distinct_cons (.dim (cellDimension conventions cells)) _
    refine ⟨cells, _, rest, hcells, hrest, rfl, rfl, ?_, ?_⟩
    · rintro ⟨hlow, hhigh⟩
      rw [hcells]
      exact length?_cellDimension hlow hhigh
    · intro heven hlength
      exact range_of_even heven (hlength.trans hcells)

theorem wide_box_counted : keepsDimensions (box 134217728 67108864) ["v"] = false ∧
    ∃ out d rest, (select {} (box 134217728 67108864) ["v"]).outcome = .ok out ∧
      out.elements = .dim d :: rest ∧ d.name = "i" ∧ d.type = .long ∧ d.length? = some (2 ^ 53) ∧
      (box 134217728 67108864).cellCount = some (2 ^ 53) := by
  have hflat : keepsDimensions (box 134217728 67108864) ["v"] = false := by decide
  have hcount : (box 134217728 67108864).cellCount = some (2 ^ 53) := by decide
  let out : Schema := plain [.dim (.implicit "i" .long 1 9007199254740992 1), .attr ⟨"v", .float⟩]
  have hout : (select {} (box 134217728 67108864) ["v"]).outcome = .ok out := by decide
  obtain ⟨cells, d, rest, hcells, helements, hname, htype, hexact, -⟩ := select_spans_cells hout hflat
  obtain rfl := Option.some.inj (hcount.symm.trans hcells)
  exact ⟨hflat, out, d, rest, hout, helements, hname, htype, (hexact (by decide)).trans hcount, hcount⟩

def Miscounts (width height : Float) (cells : Int64) (length : Option Int64) : Prop :=
  keepsDimensions (box width height) ["v"] = false ∧
    ∃ out d rest, (select {} (box width height) ["v"]).outcome = .ok out ∧ out.elements = .dim d :: rest ∧
      (box width height).cellCount = some cells ∧ d.length? = length ∧ length ≠ some cells

/-- The number of cells is not a double, or the number of steps is not, or the length does not fit. -/
theorem large_boxes_miscounted :
    Miscounts 3 3002399751580331 9007199254740993 (some 9007199254740992) ∧
    Miscounts 2 4503599627370497 9007199254740994 (some 9007199254740993) ∧
    Miscounts 153092023 60247241209 9223372036854775807 none := by
  refine ⟨⟨rfl, plain [.dim (.implicit "i" .long 1 9007199254740992 1), .attr ⟨"v", .float⟩], _, _, ?_, rfl, ?_⟩,
    ⟨rfl, plain [.dim (.implicit "i" .long 1 9007199254740994 1), .attr ⟨"v", .float⟩], _, _, ?_, rfl, ?_⟩,
    ⟨rfl, plain [.dim (.implicit "i" .long 1 9223372036854775808 1), .attr ⟨"v", .float⟩], _, _, ?_, rfl, ?_⟩⟩
  all_goals decide +kernel

end Flattening

end TensorSchema.Inference
