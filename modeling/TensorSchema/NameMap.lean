/-! Finite maps from names, kept as a list of entries with strictly increasing keys. Names are ordered by
code points, so two maps with the same entries are the same value. -/

namespace TensorSchema

structure NameMap (α : Type) where
  entries : List (String × α)
  sorted : entries.Pairwise (·.1 < ·.1)
deriving DecidableEq

namespace NameMap

variable {α : Type}

instance : EmptyCollection (NameMap α) := ⟨⟨[], .nil⟩⟩

instance : Inhabited (NameMap α) := ⟨∅⟩

theorem eq_of_entries {m n : NameMap α} (h : m.entries = n.entries) : m = n := by
  cases m
  cases n
  cases h
  rfl

def find? (m : NameMap α) (key : String) : Option α := m.entries.lookup key

def contains (m : NameMap α) (key : String) : Bool := (m.find? key).isSome

def insertEntry (key : String) (value : α) : List (String × α) → List (String × α)
  | [] => [(key, value)]
  | (k, v) :: rest =>
    if key < k then (key, value) :: (k, v) :: rest
    else if key = k then (key, value) :: rest
    else (k, v) :: insertEntry key value rest

theorem mem_insertEntry {key : String} {value : α} {l : List (String × α)} {e : String × α}
    (h : e ∈ insertEntry key value l) : e = (key, value) ∨ e ∈ l := by
  induction l with
  | nil => simpa [insertEntry] using h
  | cons head rest ih =>
    simp only [insertEntry] at h
    split at h
    · simpa using h
    · split at h
      · simp only [List.mem_cons] at h ⊢
        exact h.imp_right .inr
      · simp only [List.mem_cons] at h ⊢
        rcases h with rfl | h
        · exact .inr (.inl rfl)
        · exact (ih h).imp_right .inr

theorem sorted_insertEntry (key : String) (value : α) {l : List (String × α)}
    (h : l.Pairwise (·.1 < ·.1)) : (insertEntry key value l).Pairwise (·.1 < ·.1) := by
  induction l with
  | nil => simp [insertEntry]
  | cons head rest ih =>
    obtain ⟨hhead, hrest⟩ := List.pairwise_cons.mp h
    simp only [insertEntry]
    split
    next hlt =>
      refine List.pairwise_cons.mpr ⟨?_, h⟩
      intro e he
      rcases List.mem_cons.mp he with rfl | he
      · exact hlt
      · exact String.lt_trans hlt (hhead e he)
    next hlt =>
      split
      next heq => exact List.pairwise_cons.mpr ⟨fun e he => heq ▸ hhead e he, hrest⟩
      next hne =>
        refine List.pairwise_cons.mpr ⟨?_, ih hrest⟩
        intro e he
        rcases mem_insertEntry he with rfl | he
        · exact Classical.byContradiction fun hge =>
            hne (String.le_antisymm (String.not_lt.mp hge) (String.not_lt.mp hlt))
        · exact hhead e he

def insert (m : NameMap α) (key : String) (value : α) : NameMap α :=
  ⟨insertEntry key value m.entries, sorted_insertEntry key value m.sorted⟩

def filter (p : String → α → Bool) (m : NameMap α) : NameMap α :=
  ⟨m.entries.filter fun e => p e.1 e.2, m.sorted.filter _⟩

def ofList (l : List (String × α)) : NameMap α := l.foldl (fun m e => m.insert e.1 e.2) ∅

end NameMap

end TensorSchema
