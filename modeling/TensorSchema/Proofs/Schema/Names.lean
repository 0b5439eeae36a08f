import Mathlib
import TensorSchema.Proofs.FreshName
import TensorSchema.Schema

namespace TensorSchema

lemma find?_of_mem {α : Type} {key : α → String} {l : List α} {a : α} (hnodup : (l.map key).Nodup)
    (ha : a ∈ l) : l.find? (fun b => key b = key a) = some a := by
  have hfound : (l.find? fun b => key b = key a).isSome = true := List.find?_isSome.mpr ⟨a, ha, by simp⟩
  obtain ⟨b, hb⟩ := Option.isSome_iff_exists.mp hfound
  have hkey : key b = key a := by simpa using List.find?_some hb
  obtain rfl := List.inj_on_of_nodup_map hnodup (List.mem_of_find?_eq_some hb) ha hkey
  exact hb

namespace Element

@[simp] lemma name_rename (e : Element) (name : String) : (e.rename name).name = name := by
  cases e <;> rfl

@[simp] lemma rename_self (e : Element) : e.rename e.name = e := by
  cases e <;> rfl

end Element

namespace Schema

variable {s : Schema} {e : Element} {es : List Element} {name : String}

lemma hasElement_iff : s.hasElement name = true ↔ name ∈ s.names := by
  simp [hasElement, element?, names]

lemma name_of_find? (h : es.find? (fun e => e.name = name) = some e) : e.name = name := by
  simpa using List.find?_some h

lemma find?_eq_none_iff : es.find? (fun e => e.name = name) = none ↔ name ∉ es.map Element.name := by
  simp

lemma element?_of_mem (hnodup : s.names.Nodup) (he : e ∈ s.elements) : s.element? e.name = some e :=
  find?_of_mem hnodup he

lemma mem_dimensions {d : Dimension} : d ∈ s.dimensions ↔ .dim d ∈ s.elements := by
  rw [dimensions, List.mem_filterMap]
  constructor
  · rintro ⟨e, he, hd⟩
    cases e with
    | dim other =>
      obtain rfl := Option.some.inj hd
      exact he
    | attr a => cases hd
  · intro h
    exact ⟨_, h, rfl⟩

lemma dimension?_of_mem {d : Dimension} (hnodup : s.names.Nodup) (hd : .dim d ∈ s.elements) :
    s.dimension? d.name = some d := by
  have hfound : s.element? d.name = some (.dim d) := element?_of_mem hnodup hd
  rw [dimension?, hfound]
  rfl

lemma element?_of_dimension? {d : Dimension} (h : s.dimension? name = some d) :
    s.element? name = some (.dim d) := by
  obtain ⟨e, he, hd⟩ := Option.bind_eq_some_iff.mp h
  cases e with
  | dim other =>
    obtain rfl := Option.some.inj hd
    exact he
  | attr a => cases hd

@[simp] lemma duplicateName_zero (name : String) : duplicateName name 0 = name := by
  simp [duplicateName]

lemma duplicateName_injective (name : String) : Function.Injective (duplicateName name) := by
  intro j k h
  have hmark : "-new".length = 4 := by decide
  have hlen := congrArg String.length h
  simp only [duplicateName, String.length_append, String.length_join, List.map_replicate,
    List.sum_replicate, hmark, smul_eq_mul] at hlen
  omega

lemma storedName_not_mem (s : Schema) (name : String) : s.storedName name ∉ s.names :=
  freshName_not_mem s.names (duplicateName_injective name)

lemma storedName_eq (s : Schema) (name : String) : ∃ k, s.storedName name = duplicateName name k := by
  obtain ⟨k, hk, -⟩ := freshName_least s.names (duplicateName_injective name)
  exact ⟨k, hk⟩

lemma storedName_of_free (h : name ∉ s.names) : s.storedName name = name := by
  obtain ⟨k, hk, _, htaken⟩ := freshName_least s.names (duplicateName_injective name)
  rw [storedName, hk]
  rcases Nat.eq_zero_or_pos k with rfl | hpos
  · exact duplicateName_zero name
  · exact (h (by simpa using htaken 0 hpos)).elim

lemma names_push (s : Schema) (e : Element) : (s.push e).1.names = s.names ++ [s.storedName e.name] := by
  simp [names, push]

lemma nodup_push (h : s.names.Nodup) (e : Element) : (s.push e).1.names.Nodup := by
  rw [names_push, ← List.concat_eq_append, List.nodup_concat]
  exact ⟨s.storedName_not_mem e.name, h⟩

lemma nodup_pushAll (h : s.names.Nodup) (es : List Element) : (s.pushAll es).names.Nodup := by
  induction es generalizing s with
  | nil => exact h
  | cons e es ih => exact ih (nodup_push h e)

lemma pushAll_eq (s : Schema) (es : List Element) :
    s.pushAll es = { s with elements := (s.pushAll es).elements } := by
  induction es generalizing s with
  | nil => rfl
  | cons e es ih => exact ih (s.push e).1

lemma pushAll_append (s : Schema) (es fs : List Element) :
    s.pushAll (es ++ fs) = (s.pushAll es).pushAll fs :=
  List.foldl_append

def distinct (es : List Element) : List Element := ((new "").pushAll es).elements

def plain (elements : List Element) : Schema := ⟨"", elements, none, ∅⟩

lemma pushAll_new (es : List Element) : (new "").pushAll es = plain (distinct es) :=
  pushAll_eq _ _

lemma distinct_concat (es : List Element) (e : Element) :
    distinct (es ++ [e]) = distinct es ++ [e.rename ((plain (distinct es)).storedName e.name)] := by
  simp only [distinct, pushAll_append]
  rw [pushAll_new]
  rfl

lemma mem_distinct (h : e ∈ distinct es) : ∃ f ∈ es, ∃ name, e = f.rename name := by
  induction es using List.reverseRecOn with
  | nil => cases h
  | append_singleton es f ih =>
    rw [distinct_concat] at h
    rcases List.mem_append.mp h with hold | hnew
    · obtain ⟨g, hg, hname⟩ := ih hold
      exact ⟨g, List.mem_append_left _ hg, hname⟩
    · exact ⟨f, by simp, _, List.mem_singleton.mp hnew⟩

lemma exists_mem_distinct (h : e ∈ es) : ∃ k, e.rename (duplicateName e.name k) ∈ distinct es := by
  induction es using List.reverseRecOn with
  | nil => cases h
  | append_singleton es last ih =>
    rw [distinct_concat]
    rcases List.mem_append.mp h with h | h
    · obtain ⟨k, hk⟩ := ih h
      exact ⟨k, List.mem_append_left _ hk⟩
    · obtain rfl := List.mem_singleton.mp h
      obtain ⟨k, hk⟩ := storedName_eq (plain (distinct es)) e.name
      refine ⟨k, List.mem_append_right _ ?_⟩
      rw [← hk]
      exact List.mem_singleton_self _

lemma nodup_distinct (es : List Element) : ((distinct es).map Element.name).Nodup :=
  nodup_pushAll (s := new "") List.nodup_nil es

lemma distinct_append_one (h : distinct es = es) (e : Element) :
    distinct (es ++ [e]) = es ++ [e.rename ((plain es).storedName e.name)] := by
  rw [distinct_concat, h]

lemma distinct_of_nodup (h : (es.map Element.name).Nodup) : distinct es = es := by
  induction es using List.reverseRecOn with
  | nil => rfl
  | append_singleton es e ih =>
    rw [List.map_append, List.map_singleton, ← List.concat_eq_append, List.nodup_concat] at h
    rw [distinct_append_one (ih h.2), storedName_of_free (s := plain es) h.1, Element.rename_self]

lemma copy_cases (s : Schema) (parts : Parts) :
    ∃ es, s.copy parts = plain (distinct es) ∨ ∃ type, s.nominal = some type ∧
      s.copy parts =
        (plain (distinct es)).attach type ((plain (distinct es)).restrictRoles s.roles) := by
  refine ⟨s.elements.filter parts.keeps, ?_⟩
  simp only [copy, pushAll_new]
  cases s.nominal with
  | none => exact Or.inl rfl
  | some type =>
    cases parts.nominal with
    | false => exact Or.inl rfl
    | true => exact Or.inr ⟨type, rfl, rfl⟩

lemma copy_structural (s : Schema) : s.copy .structural = plain (distinct s.elements) := by
  have hall : s.elements.filter Parts.structural.keeps = s.elements := by
    apply List.filter_eq_self.mpr
    intro e _
    cases e <;> rfl
  simp only [copy, hall, pushAll_new]
  cases s.nominal <;> rfl

def storedNames (asked : List String) : List String :=
  asked.foldl (fun taken name => taken ++ [freshName taken (duplicateName name)]) []

lemma storedNames_concat (asked : List String) (name : String) :
    storedNames (asked ++ [name]) =
      storedNames asked ++ [freshName (storedNames asked) (duplicateName name)] :=
  List.foldl_append

lemma storedNames_eq (es : List Element) :
    storedNames (es.map Element.name) = (distinct es).map Element.name := by
  induction es using List.reverseRecOn with
  | nil => rfl
  | append_singleton es e ih =>
    rw [List.map_append, List.map_singleton, storedNames_concat, ih, distinct_concat, List.map_append,
      List.map_singleton, Element.name_rename]
    rfl

lemma distinct_extends (es fs : List Element) : distinct es <+: distinct (es ++ fs) := by
  induction fs using List.reverseRecOn with
  | nil => rw [List.append_nil]
  | append_singleton fs f ih =>
    rw [← List.append_assoc, distinct_concat]
    exact ih.trans (List.prefix_append _ _)

lemma takeWhile_ne_append {asked : List String} (h : name ∉ asked) (rest : List String) :
    (asked ++ rest).takeWhile (· ≠ name) = asked ++ rest.takeWhile (· ≠ name) := by
  apply List.takeWhile_append_of_pos
  intro other hother
  exact decide_eq_true (ne_of_mem_of_not_mem hother h)

/-- The first element that asks for a name gets it, unless one before it was renamed to it. -/
lemma find?_distinct (h : name ∉ storedNames ((es.map Element.name).takeWhile (· ≠ name))) :
    (distinct es).find? (fun e => e.name = name) = es.find? (fun e => e.name = name) := by
  cases hfound : es.find? (fun e => e.name = name) with
  | none =>
    have hall := takeWhile_ne_append (find?_eq_none_iff.mp hfound) []
    rw [List.append_nil, List.takeWhile_nil, List.append_nil] at hall
    rw [hall, storedNames_eq] at h
    exact find?_eq_none_iff.mpr h
  | some e =>
    obtain ⟨he, before, after, rfl, hbefore⟩ := List.find?_eq_some_iff_append.mp hfound
    have hname : e.name = name := of_decide_eq_true he
    have hasked : name ∉ before.map Element.name := by simpa using hbefore
    rw [List.map_append, takeWhile_ne_append hasked, List.map_cons,
      List.takeWhile_cons_of_neg (by simp [hname]), List.append_nil, storedNames_eq] at h
    have hstored : (distinct (before ++ [e])).find? (fun e => e.name = name) = some e := by
      rw [distinct_concat, hname, storedName_of_free (s := plain (distinct before)) h,
        List.find?_append, find?_eq_none_iff.mpr h, ← hname, Element.rename_self]
      simp
    rw [List.append_cons]
    exact (distinct_extends _ _).find?_eq_some hstored

section Past

variable {p : String → Prop} {fs gs : List Element} {f g : Element}

/-- An element as it is stored after others whose names all have a property: an element whose own name
lacks the property is unchanged. -/
structure StoredPast (p : String → Prop) (f g : Element) : Prop where
  marked : ∃ k, g = f.rename (duplicateName f.name k)
  unchanged : ¬ p f.name → g = f

lemma names_storedPast (hmarks : ∀ name k, p name → p (duplicateName name k))
    (h : List.Forall₂ (StoredPast p) fs gs) :
    ∀ g ∈ gs, g.name ∈ fs.map Element.name ∨ p g.name := by
  induction h with
  | nil => simp
  | @cons f g _ _ hstored _ ih =>
    refine List.forall_mem_cons.mpr ⟨?_, ?_⟩
    · by_cases hf : p f.name
      · obtain ⟨k, rfl⟩ := hstored.marked
        rw [Element.name_rename]
        exact Or.inr (hmarks _ _ hf)
      · rw [hstored.unchanged hf]
        exact Or.inl List.mem_cons_self
    · intro g hg
      exact (ih g hg).imp_left (List.mem_cons_of_mem _)

lemma distinct_past (hmarks : ∀ name k, p name → p (duplicateName name k))
    (hes : (es.map Element.name).Nodup) (hp : ∀ e ∈ es, p e.name) (hfs : (fs.map Element.name).Nodup) :
    ∃ gs, distinct (es ++ fs) = es ++ gs ∧ List.Forall₂ (StoredPast p) fs gs := by
  induction fs using List.reverseRecOn with
  | nil =>
    refine ⟨[], ?_, .nil⟩
    rw [List.append_nil, distinct_of_nodup hes]
  | append_singleton fs f ih =>
    rw [List.map_append, List.map_singleton, ← List.concat_eq_append, List.nodup_concat] at hfs
    obtain ⟨gs, hgs, hstored⟩ := ih hfs.2
    refine ⟨gs ++ [f.rename ((plain (es ++ gs)).storedName f.name)], ?_, ?_⟩
    · rw [← List.append_assoc, distinct_concat, hgs, List.append_assoc]
    · refine List.rel_append hstored (.cons ⟨?_, ?_⟩ .nil)
      · obtain ⟨k, hk⟩ := storedName_eq (plain (es ++ gs)) f.name
        exact ⟨k, by rw [hk]⟩
      · intro hf
        -- a taken name has the property, or an element before this one asked for it
        have hfree : f.name ∉ (plain (es ++ gs)).names := by
          intro htaken
          obtain ⟨g, hg, hname⟩ := List.mem_map.mp htaken
          rcases List.mem_append.mp hg with hg | hg
          · exact hf (hname ▸ hp g hg)
          · rcases names_storedPast hmarks hstored g hg with hasked | hmarked
            · exact hfs.1 (hname ▸ hasked)
            · exact hf (hname ▸ hmarked)
        rw [storedName_of_free hfree, Element.rename_self]

end Past

end Schema

end TensorSchema
