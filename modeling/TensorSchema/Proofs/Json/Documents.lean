import Mathlib
import TensorSchema.Proofs.Json.NumberGrammar
import TensorSchema.Proofs.Json.Strings

namespace TensorSchema.Json

inductive WellFormed : Json → Prop
  | null : WellFormed null
  | bool (b : Bool) : WellFormed (bool b)
  | number {token : List Char} : IsNumber token → WellFormed (number token)
  | string (content : Option String) : WellFormed (string content)
  | array {items : List Json} : (∀ v ∈ items, WellFormed v) → WellFormed (array items)
  | object {members : List (Option String × Json)} : (∀ m ∈ members, WellFormed m.2) →
      WellFormed (object members)

structure Readable (v : Json) : Prop where
  starts : ∃ c cs, write v = c :: cs ∧ isSpace c = false ∧ c ≠ ']'
  reads : ∀ fuel rest, (write v).length ≤ fuel → Avoids Extends rest →
    readValue (fuel + 1) (write v ++ rest) = some (v, rest)

variable {v : Json} {key : Option String} {items : List Json} {members : List (Option String × Json)}
  {c : Char} {cs rest : List Char} {fuel : ℕ}

lemma skipSpace_cons (h : isSpace c = false) : skipSpace (c :: cs) = c :: cs := by
  simp [skipSpace, h]

lemma Readable.skipSpace (h : Readable v) (rest : List Char) :
    skipSpace (write v ++ rest) = write v ++ rest := by
  obtain ⟨c, cs, hwrite, hspace, _⟩ := h.starts
  rw [hwrite]
  exact skipSpace_cons hspace

lemma ne_of_starts_number {d : Char} (hc : c.isDigit = true ∨ c = '-')
    (hd : ¬ (d.isDigit = true ∨ d = '-')) : c ≠ d := by
  rintro rfl
  exact hd hc

lemma readValue_number (hc : c.isDigit = true ∨ c = '-') :
    readValue (fuel + 1) (c :: cs) =
      (readNumber (c :: cs)).map fun (token, rest) => (number token, rest) := by
  have hnull := ne_of_starts_number (d := 'n') hc (by decide)
  have htrue := ne_of_starts_number (d := 't') hc (by decide)
  have hfalse := ne_of_starts_number (d := 'f') hc (by decide)
  have hquote := ne_of_starts_number (d := '"') hc (by decide)
  have harray := ne_of_starts_number (d := '[') hc (by decide)
  have hobject := ne_of_starts_number (d := '\x7b') hc (by decide)
  rw [readValue]
  all_goals simp_all

lemma readable_number {token : List Char} (h : IsNumber token) : Readable (number token) := by
  obtain ⟨c, cs, rfl, hc⟩ := h.exists_cons
  refine ⟨⟨c, cs, rfl, ?_, ne_of_starts_number hc (by decide)⟩, ?_⟩
  · have hspaces : c ≠ ' ' ∧ c ≠ '\n' ∧ c ≠ '\t' ∧ c ≠ '\r' := by
      refine ⟨?_, ?_, ?_, ?_⟩ <;> exact ne_of_starts_number hc (by decide)
    simp [isSpace, hspaces]
  · intro fuel rest _ hrest
    rw [write, List.cons_append, readValue_number hc, ← List.cons_append, readNumber_append h hrest]
    rfl

lemma readable_string (content : Option String) : Readable (string content) := by
  obtain ⟨body, hbody, hread⟩ := writeContent_eq content
  refine ⟨⟨'"', body, by rw [write, hbody], by decide, by decide⟩, ?_⟩
  intro fuel rest _ _
  rw [write, hbody, List.cons_append, readValue, hread]
  rfl

lemma writeItems_starts (items : List Json) :
    ∃ c cs, writeItems items = c :: cs ∧ isSpace c = false ∧ ¬ Extends c := by
  cases items with
  | nil => exact ⟨']', [], rfl, by decide, by decide⟩
  | cons v items => exact ⟨',', _, rfl, by decide, by decide⟩

lemma writeMembers_starts (members : List (Option String × Json)) :
    ∃ c cs, writeMembers members = c :: cs ∧ isSpace c = false ∧ ¬ Extends c := by
  cases members with
  | nil => exact ⟨'\x7d', [], rfl, by decide, by decide⟩
  | cons m members => exact ⟨',', _, rfl, by decide, by decide⟩

lemma tail_starts {tail : List Char}
    (h : ∃ c cs, tail = c :: cs ∧ isSpace c = false ∧ ¬ Extends c) (rest : List Char) :
    skipSpace (tail ++ rest) = tail ++ rest ∧ Avoids Extends (tail ++ rest) := by
  obtain ⟨c, cs, rfl, hspace, hextends⟩ := h
  exact ⟨skipSpace_cons hspace, avoids_cons.mpr hextends⟩

lemma readItems_write (h : ∀ v ∈ items, Readable v) (hfuel : (writeItems items).length ≤ fuel) :
    readItems (fuel + 1) (writeItems items ++ rest) = some (items, rest) := by
  induction items generalizing fuel with
  | nil => rfl
  | cons v items ih =>
    obtain ⟨hv, hitems⟩ := List.forall_mem_cons.mp h
    obtain ⟨hskip, havoids⟩ := tail_starts (writeItems_starts items) rest
    simp only [writeItems, List.length_cons, List.length_append] at hfuel
    obtain ⟨fuel, rfl⟩ : ∃ k, fuel = k + 1 := ⟨fuel - 1, by omega⟩
    have htail := @ih fuel hitems (by omega)
    simp only [writeItems, List.cons_append, List.append_assoc]
    rw [readItems, hv.skipSpace, hv.reads fuel _ (by omega) havoids]
    simp only [Option.bind_eq_bind, Option.bind_some, hskip, htail]
    rfl

lemma readMember_write (hv : Readable v)
    (hfuel : (writeContent key).length + (write v).length ≤ fuel) (hrest : Avoids Extends rest) :
    readMember (fuel + 1) (writeContent key ++ ':' :: (write v ++ rest)) = some ((key, v), rest) := by
  obtain ⟨body, hbody, hread⟩ := writeContent_eq key
  rw [hbody, List.length_cons] at hfuel
  obtain ⟨fuel, rfl⟩ : ∃ k, fuel = k + 1 := ⟨fuel - 1, by omega⟩
  have hcolon : skipSpace (':' :: (write v ++ rest)) = ':' :: (write v ++ rest) :=
    skipSpace_cons (by decide)
  rw [hbody, List.cons_append, readMember, hread]
  simp only [Option.bind_eq_bind, Option.bind_some, hcolon, hv.skipSpace,
    hv.reads fuel rest (by omega) hrest]
  rfl

lemma skipSpace_writeContent (key : Option String) (rest : List Char) :
    skipSpace (writeContent key ++ rest) = writeContent key ++ rest := by
  obtain ⟨body, hbody, _⟩ := writeContent_eq key
  rw [hbody, List.cons_append]
  exact skipSpace_cons (by decide)

lemma readMembers_write (h : ∀ m ∈ members, Readable m.2)
    (hfuel : (writeMembers members).length ≤ fuel) :
    readMembers (fuel + 1) (writeMembers members ++ rest) = some (members, rest) := by
  induction members generalizing fuel with
  | nil => rfl
  | cons m members ih =>
    obtain ⟨key, v⟩ := m
    obtain ⟨(hv : Readable v), hmembers⟩ := List.forall_mem_cons.mp h
    obtain ⟨hskip, havoids⟩ := tail_starts (writeMembers_starts members) rest
    simp only [writeMembers, List.length_cons, List.length_append] at hfuel
    obtain ⟨fuel, rfl⟩ : ∃ k, fuel = k + 1 := ⟨fuel - 1, by omega⟩
    have htail := @ih fuel hmembers (by omega)
    simp only [writeMembers, List.cons_append, List.append_assoc]
    rw [readMembers, skipSpace_writeContent, readMember_write hv (by omega) havoids]
    simp only [Option.bind_eq_bind, Option.bind_some, hskip, htail]
    rfl

lemma readable_array (h : ∀ v ∈ items, Readable v) : Readable (array items) := by
  cases items with
  | nil => exact ⟨⟨'[', [']'], rfl, by decide, by decide⟩, fun _ _ _ _ => rfl⟩
  | cons v items =>
    obtain ⟨hv, hitems⟩ := List.forall_mem_cons.mp h
    refine ⟨⟨'[', _, rfl, by decide, by decide⟩, ?_⟩
    intro fuel rest hfuel _
    obtain ⟨hskip, havoids⟩ := tail_starts (writeItems_starts items) rest
    obtain ⟨c, cs, hwrite, _, hclose⟩ := hv.starts
    simp only [write, List.length_cons, List.length_append] at hfuel
    obtain ⟨fuel, rfl⟩ : ∃ k, fuel = k + 1 := ⟨fuel - 1, by omega⟩
    have hread := hv.reads fuel (writeItems items ++ rest) (by omega) havoids
    simp only [write, List.cons_append, List.append_assoc]
    rw [readValue, hv.skipSpace]
    -- the written item does not start as the end of the array does
    rw [hwrite, List.cons_append] at hread ⊢
    split
    · simp_all
    · simp only [hread, Option.bind_eq_bind, Option.bind_some, hskip,
        readItems_write hitems (by omega : (writeItems items).length ≤ fuel)]
      rfl

lemma readable_object (h : ∀ m ∈ members, Readable m.2) : Readable (object members) := by
  cases members with
  | nil => exact ⟨⟨'\x7b', ['\x7d'], rfl, by decide, by decide⟩, fun _ _ _ _ => rfl⟩
  | cons m members =>
    obtain ⟨key, v⟩ := m
    obtain ⟨(hv : Readable v), hmembers⟩ := List.forall_mem_cons.mp h
    refine ⟨⟨'\x7b', _, rfl, by decide, by decide⟩, ?_⟩
    intro fuel rest hfuel _
    obtain ⟨hskip, havoids⟩ := tail_starts (writeMembers_starts members) rest
    obtain ⟨body, hbody, _⟩ := writeContent_eq key
    simp only [write, List.length_cons, List.length_append] at hfuel
    obtain ⟨fuel, rfl⟩ : ∃ k, fuel = k + 1 := ⟨fuel - 1, by omega⟩
    have hread := @readMember_write v key _ fuel hv (by omega) havoids
    simp only [write, List.cons_append, List.append_assoc]
    rw [readValue, skipSpace_writeContent]
    rw [hbody, List.cons_append] at hread ⊢
    split
    · simp_all
    · simp only [hread, Option.bind_eq_bind, Option.bind_some, hskip,
        readMembers_write hmembers (by omega : (writeMembers members).length ≤ fuel)]
      rfl

lemma WellFormed.readable (h : WellFormed v) : Readable v := by
  induction h with
  | null => exact ⟨⟨'n', _, rfl, by decide, by decide⟩, fun _ _ _ _ => rfl⟩
  | bool b => cases b <;> exact ⟨⟨_, _, rfl, by decide, by decide⟩, fun _ _ _ _ => rfl⟩
  | number h => exact readable_number h
  | string content => exact readable_string content
  | array _ ih => exact readable_array ih
  | object _ ih => exact readable_object ih

lemma parse?_render (h : WellFormed v) : parse? (render v) = some v := by
  have hread := h.readable.reads (write v).length [] le_rfl (avoids_nil _)
  have hskip := h.readable.skipSpace []
  rw [List.append_nil] at hread hskip
  simp only [parse?, render, String.length_ofList, String.toList_ofList, hskip, hread]
  rfl

end TensorSchema.Json
