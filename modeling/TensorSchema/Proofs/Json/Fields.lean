import Mathlib
import TensorSchema.Json.Fields
import TensorSchema.Proofs.Json.Documents
import TensorSchema.Proofs.Json.Numbers
import TensorSchema.Proofs.NameMap
import TensorSchema.Proofs.Outcome

namespace TensorSchema.Json

variable {α β : Type} {names : List String} {values : List Json} {v : Json}

section WellFormed

lemma wellFormed_text (s : String) : WellFormed (text s) := .string (some s)

lemma wellFormed_ofInt (i : ℤ) : WellFormed (ofInt i) := by
  obtain ⟨token, htoken, heq⟩ := isNumber_ofInt i
  rw [heq]
  exact .number htoken

lemma wellFormed_ofFloat (x : Float) : WellFormed (ofFloat x) := by
  rw [ofFloat]
  split
  next hfinite => exact .number (isNumber_text hfinite)
  next => exact .null

lemma wellFormed_record {members : List (String × Json)} (h : ∀ m ∈ members, WellFormed m.2) :
    WellFormed (record members) :=
  .object (List.forall_mem_map.mpr h)

lemma wellFormed_zip (h : ∀ v ∈ values, WellFormed v) : WellFormed (record (names.zip values)) :=
  wellFormed_record fun _ hm => h _ (List.of_mem_zip hm).2

lemma wellFormed_variant (tag : String) (h : WellFormed v) : WellFormed (variant tag v) :=
  wellFormed_record (by simpa using h)

lemma wellFormed_list {toJson : α → Json} (l : List α) (h : ∀ a, WellFormed (toJson a)) :
    WellFormed (array (l.map toJson)) :=
  .array (List.forall_mem_map.mpr fun a _ => h a)

lemma wellFormed_ofMap {toJson : α → Json} (m : NameMap α) (h : ∀ a, WellFormed (toJson a)) :
    WellFormed (ofMap toJson m) :=
  wellFormed_record (List.forall_mem_map.mpr fun e _ => h e.2)

end WellFormed

lemma mapM_map_inverse {f : α → β} {g : β → Option α} (l : List α) (h : ∀ a, g (f a) = some a) :
    (l.map f).mapM g = some l := by
  have hmap : l.mapM (g ∘ f) = pure (l.map id) := mapM_of_pure fun a _ => h a
  rw [List.mapM_map, hmap, List.map_id]
  rfl

section Members

lemma named?_record (members : List (String × Json)) :
    named? (members.map fun (k, v) => (some k, v)) = some members :=
  mapM_map_inverse members fun _ => rfl

lemma member?_of_mem {members : List (String × Json)} {name : String}
    (hnames : (members.map Prod.fst).Nodup) (h : (name, v) ∈ members) :
    member? members name = some (some v) := by
  suffices hfilter : members.filter (fun m => m.1 = name) = [(name, v)] by
    rw [member?, hfilter]
  induction members with
  | nil => exact (List.not_mem_nil h).elim
  | cons m members ih =>
    obtain ⟨hm, hnames⟩ := List.nodup_cons.mp hnames
    rcases List.mem_cons.mp h with rfl | h
    · rw [List.filter_cons_of_pos (by simp), List.filter_eq_nil_iff.mpr]
      intro other hother heq
      exact hm (List.mem_map.mpr ⟨other, hother, by simpa using heq⟩)
    · have hne : m.1 ≠ name := fun he => hm (he ▸ List.mem_map_of_mem h)
      rw [List.filter_cons_of_neg (by simpa using hne), ih hnames h]

lemma fields?_record (hnames : names.Nodup) (hlength : names.length = values.length) :
    (record (names.zip values)).fields? names = some (values.map some) := by
  have hfst : (names.zip values).map Prod.fst = names := List.map_fst_zip hlength.le
  have hsnd : (names.zip values).map Prod.snd = values := List.map_snd_zip hlength.ge
  have hread : ∀ m ∈ names.zip values, member? (names.zip values) m.1 = pure (some m.2) := fun m hm =>
    member?_of_mem (hfst.symm ▸ hnames) hm
  rw [record, fields?, named?_record]
  calc names.mapM (member? (names.zip values))
      = ((names.zip values).map Prod.fst).mapM (member? (names.zip values)) := by rw [hfst]
    _ = some ((names.zip values).map fun m => some m.2) := by
      rw [List.mapM_map]
      exact mapM_of_pure hread
    _ = some (values.map some) := by
      conv_rhs => rw [← hsnd, List.map_map]
      rfl

lemma defaultedFields?_record (hnames : names.Nodup) (hlength : names.length = values.length) :
    (record (names.zip values)).defaultedFields? names = some (values.map some) :=
  fields?_record hnames hlength

lemma variant?_variant (tag : String) (payload : Json) :
    (variant tag payload).variant? = some (tag, payload) := rfl

lemma string?_text (s : String) : (text s).string? = some s := rfl

end Members

section Collections

variable {toJson : α → Json} {ofJson? : Json → Option α}

lemma list?_map (l : List α) (h : ∀ a, ofJson? (toJson a) = some a) :
    list? ofJson? (array (l.map toJson)) = some l :=
  mapM_map_inverse l h

lemma map?_ofMap (m : NameMap α) (h : ∀ a, ofJson? (toJson a) = some a) :
    map? ofJson? (ofMap toJson m) = some m := by
  rw [ofMap, record, map?, named?_record, Option.bind_eq_bind, Option.bind_some, mapM_map_inverse]
  · exact congrArg some m.ofList_entries
  · intro entry
    simp [h]

end Collections

section Doubles

variable {xs ys : List Float} {x : Float} {a : α}

def ReadsBack (x : Float) : Prop := (number (Double.text .snapshot x).toList).float? = some x

instance : DecidablePred ReadsBack := fun x =>
  inferInstanceAs (Decidable ((number (Double.text .snapshot x).toList).float? = some x))

/-- The digits and the power of ten are rounded one after the other, and the double below is read. -/
theorem not_readsBack : ¬ ReadsBack 0.10010793834961633 ∧
    (number (Double.text .snapshot 0.10010793834961633).toList).float? = some 0.10010793834961632 := by
  constructor <;> decide +kernel

def Faithful (xs : List Float) : Prop := ∀ x ∈ xs, x.isFinite = true → ReadsBack x

lemma faithful_flatMap {f : α → List Float} {l : List α} (h : Faithful (l.flatMap f)) :
    ∀ a ∈ l, Faithful (f a) := fun a ha x hx => h x (List.mem_flatMap.mpr ⟨a, ha, hx⟩)

def whenFinite (xs : List Float) (a : α) : Option α := if xs.all Float.isFinite then some a else none

lemma map_whenFinite (f : α → β) : (whenFinite xs a).map f = whenFinite xs (f a) := by
  unfold whenFinite
  split <;> rfl

lemma whenFinite_bind_some (f : α → β) :
    ((whenFinite xs a).bind fun b => some (f b)) = whenFinite xs (f a) := by
  unfold whenFinite
  split <;> rfl

lemma whenFinite_bind (f : α → β) :
    ((whenFinite xs a).bind fun b => whenFinite ys (f b)) = whenFinite (xs ++ ys) (f a) := by
  unfold whenFinite
  cases hxs : xs.all Float.isFinite <;> simp [hxs]

lemma float?_ofFloat (h : x.isFinite = true → ReadsBack x) : (ofFloat x).float? = whenFinite [x] x := by
  unfold ofFloat whenFinite
  cases hx : x.isFinite with
  | true => simpa [hx, ReadsBack] using h hx
  | false => simp [hx, float?]

lemma list?_whenFinite {toJson : α → Json} {ofJson? : Json → Option α} {floats : α → List Float}
    {l : List α} (h : ∀ a ∈ l, ofJson? (toJson a) = whenFinite (floats a) a) :
    list? ofJson? (array (l.map toJson)) = whenFinite (l.flatMap floats) l := by
  change (l.map toJson).mapM ofJson? = _
  induction l with
  | nil => rfl
  | cons a l ih =>
    obtain ⟨ha, hl⟩ := List.forall_mem_cons.mp h
    simp only [List.map_cons, List.mapM_cons, ha, ih hl, Option.bind_eq_bind, Option.pure_def,
      whenFinite_bind_some, whenFinite_bind, List.flatMap_cons]

end Doubles

end TensorSchema.Json
