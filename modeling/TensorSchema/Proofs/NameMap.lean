import Mathlib
import TensorSchema.NameMap

namespace TensorSchema.NameMap

variable {α : Type} {m : NameMap α} {key other : String} {value found : α}

@[simp] lemma find?_empty (key : String) : (∅ : NameMap α).find? key = none := rfl

lemma lookup_of_mem {entries : List (String × α)} (h : entries.Pairwise (·.1 < ·.1))
    (hmem : (key, value) ∈ entries) : entries.lookup key = some value := by
  induction entries with
  | nil => exact (List.not_mem_nil hmem).elim
  | cons entry rest ih =>
    obtain ⟨k, v⟩ := entry
    obtain ⟨hhead, hrest⟩ := List.pairwise_cons.mp h
    rcases List.mem_cons.mp hmem with heq | hmem
    · obtain ⟨rfl, rfl⟩ := Prod.mk.inj heq
      simp
    · have hne : key ≠ k := fun he => String.lt_irrefl k (he ▸ hhead _ hmem)
      rw [List.lookup_cons, beq_false_of_ne hne]
      exact ih hrest hmem

lemma find?_eq_some_iff : m.find? key = some value ↔ (key, value) ∈ m.entries := by
  constructor
  · intro h
    obtain ⟨before, after, hentries, _⟩ := List.lookup_eq_some_iff.mp h
    rw [hentries]
    simp
  · exact lookup_of_mem m.sorted

lemma find?_filter {p : String → α → Bool} :
    (m.filter p).find? key = some value ↔ m.find? key = some value ∧ p key value = true := by
  simp [find?_eq_some_iff, filter]

lemma lookup_cons_eq (entry : String × α) (rest : List (String × α)) (key : String) :
    (entry :: rest).lookup key = if key = entry.1 then some entry.2 else rest.lookup key := by
  by_cases h : key = entry.1
  · rw [if_pos h, List.lookup_cons, beq_iff_eq.mpr h]
  · rw [if_neg h, List.lookup_cons, beq_false_of_ne h]

lemma lookup_insertEntry (key other : String) (value : α) (entries : List (String × α)) :
    (insertEntry key value entries).lookup other =
      if other = key then some value else entries.lookup other := by
  induction entries with
  | nil => exact lookup_cons_eq _ _ _
  | cons entry rest ih =>
    by_cases hlt : key < entry.1
    · rw [insertEntry, if_pos hlt]
      exact lookup_cons_eq _ _ _
    rw [insertEntry, if_neg hlt, lookup_cons_eq entry]
    by_cases heq : key = entry.1
    · rw [if_pos heq, ← heq, lookup_cons_eq]
      split_ifs <;> rfl
    · -- the two keys differ, so it does not matter which is compared first
      have hother : other = entry.1 → ¬ other = key := fun h hkey => heq (hkey ▸ h)
      rw [if_neg heq, lookup_cons_eq, ih]
      exact ite_ite_comm _ _ _ _ hother

lemma find?_insert_eq (m : NameMap α) (key other : String) (value : α) :
    (m.insert key value).find? other = if other = key then some value else m.find? other :=
  lookup_insertEntry key other value m.entries

lemma find?_insert (h : (m.insert key value).find? other = some found) :
    other = key ∧ found = value ∨ m.find? other = some found := by
  rw [find?_insert_eq] at h
  split at h
  next heq => exact Or.inl ⟨heq, (Option.some.inj h).symm⟩
  next => exact Or.inr h

lemma insertEntry_last {entries : List (String × α)} (h : ∀ e ∈ entries, e.1 < key) :
    insertEntry key value entries = entries ++ [(key, value)] := by
  induction entries with
  | nil => rfl
  | cons entry rest ih =>
    obtain ⟨hentry, hrest⟩ := List.forall_mem_cons.mp h
    rw [insertEntry, if_neg (String.lt_asymm hentry), if_neg (String.ne_of_lt hentry).symm, ih hrest]
    rfl

lemma entries_foldl_insert {entries : List (String × α)}
    (h : (m.entries ++ entries).Pairwise (·.1 < ·.1)) :
    (entries.foldl (fun m e => m.insert e.1 e.2) m).entries = m.entries ++ entries := by
  induction entries generalizing m with
  | nil => simp
  | cons entry rest ih =>
    have hlast : (m.insert entry.1 entry.2).entries = m.entries ++ [entry] :=
      insertEntry_last fun e he => (List.pairwise_append.mp h).2.2 e he entry List.mem_cons_self
    rw [List.foldl_cons, ih (by simpa [hlast] using h), hlast]
    simp

lemma ofList_entries (m : NameMap α) : ofList m.entries = m :=
  eq_of_entries (entries_foldl_insert m.sorted)

end TensorSchema.NameMap
