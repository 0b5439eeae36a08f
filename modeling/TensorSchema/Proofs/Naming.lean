import Mathlib
import TensorSchema.Proofs.Plan.Nodes
import TensorSchema.Proofs.Schema.Names

/-! Names are made unique by loops that try one candidate after the other: an element gets one more
duplicate mark in each round, a node the next number. Both loops end, and they end at the least candidate
that is free. -/

namespace TensorSchema

open StateTransition

section Search

variable {taken : List String} {candidate : ℕ → String} {σ : Type} {f : σ → Option σ} {states : ℕ → σ}
  {k : ℕ}

lemma eval_states (hnext : ∀ i < k, f (states i) = some (states (i + 1)))
    (hstop : f (states k) = none) : eval f (states 0) = Part.some (states k) := by
  have hreaches : ∀ i ≤ k, Reaches f (states 0) (states i) := by
    intro i hi
    induction i with
    | zero => exact .refl
    | succ i ih => exact (ih (by omega)).tail (hnext i hi)
  exact Part.eq_some_iff.mpr (mem_eval.mpr ⟨hreaches k le_rfl, hstop⟩)

variable (f states) in
/-- A loop whose states stand for the candidates in order ends at the state of the fresh name. It goes on
at most once for each name that is taken. -/
lemma eval_fresh (hinj : Function.Injective candidate)
    (hnext : ∀ i < taken.toFinset.card, candidate i ∈ taken → f (states i) = some (states (i + 1)))
    (hstop : ∀ i, candidate i ∉ taken → f (states i) = none) :
    ∃ k, freshName taken candidate = candidate k ∧ candidate k ∉ taken ∧
      (∀ i < k, candidate i ∈ taken) ∧ eval f (states 0) = Part.some (states k) := by
  obtain ⟨k, hk, hfree, htaken⟩ := freshName_least taken hinj
  have hrounds := le_card_of_taken hinj htaken
  refine ⟨k, hk, hfree, htaken, eval_states ?_ (hstop k hfree)⟩
  intro i hi
  exact hnext i (hi.trans_le hrounds) (htaken i hi)

end Search

namespace Schema

def remark (taken : List String) (name : String) : Option String :=
  if name ∈ taken then some (name ++ "-new") else none

lemma duplicateName_succ (name : String) (k : ℕ) :
    duplicateName name (k + 1) = duplicateName name k ++ "-new" := by
  simp [duplicateName, List.replicate_succ', String.append_assoc]

theorem push_least_mark (s : Schema) (e : Element) :
    ∃ (k : ℕ) (stored : Element),
      eval (remark s.names) e.name = Part.some stored.name ∧
      stored.name = duplicateName e.name k ∧ stored.name ∉ s.names ∧
      (∀ i < k, duplicateName e.name i ∈ s.names) ∧ stored.rename e.name = e ∧
      s.push e = ({ s with elements := s.elements ++ [stored] }, stored.name) := by
  have hnext : ∀ i < s.names.toFinset.card, duplicateName e.name i ∈ s.names →
      remark s.names (duplicateName e.name i) = some (duplicateName e.name (i + 1)) := by
    intro i _ htaken
    rw [remark, if_pos htaken, duplicateName_succ]
  have hstop : ∀ i, duplicateName e.name i ∉ s.names →
      remark s.names (duplicateName e.name i) = none := fun i hfree => if_neg hfree
  obtain ⟨k, hk, hfree, htaken, hends⟩ :=
    eval_fresh (remark s.names) (duplicateName e.name) (duplicateName_injective e.name) hnext hstop
  have hname : (e.rename (s.storedName e.name)).name = duplicateName e.name k :=
    (e.name_rename _).trans hk
  refine ⟨k, e.rename (s.storedName e.name), ?_, hname, ?_, htaken, ?_, ?_⟩
  · rw [hname, ← hends, duplicateName_zero]
  · rwa [hname]
  · cases e <;> rfl
  · rw [push, e.name_rename]

example : ((plain [.attr ⟨"v-new", .int⟩, .attr ⟨"v", .int⟩, .attr ⟨"v", .int⟩]).push
    (.attr ⟨"v", .int⟩)).2 = "v-new-new" := by decide

end Schema

namespace Plan

/-- One round of the search for the name of a new node: if the last name is used, the counter becomes the
number of the next one and counts up. No round follows one whose counter is the greatest 32-bit integer. -/
def renumber (used : List String) (name : String) (state : String × Int32) :
    Option (String × Int32) :=
  if state.1 ∈ used ∧ state.2 ≠ Int32.maxValue then
    some (name ++ "_" ++ toString state.2, state.2 + 1)
  else none

lemma toString_ofNat {n : ℕ} (h : n < 2 ^ 31) : toString (Int32.ofNat n) = toString n := by
  have hvalue : (Int32.ofNat n).toInt = n := Int32.toInt_ofNat_of_lt h
  change toString (Int32.ofNat n).toInt = toString n
  rw [hvalue]
  rfl

lemma renumber_of_used {used : List String} {name : String} {i : ℕ} (hi : i + 1 < 2 ^ 31 - 1)
    (hused : numberedName name i ∈ used) :
    renumber used name (numberedName name i, Int32.ofNat (i + 1)) =
      some (numberedName name (i + 1), Int32.ofNat (i + 1 + 1)) := by
  have hroom : Int32.ofNat (i + 1) ≠ Int32.maxValue := by
    intro hmax
    have hvalue := congrArg Int32.toInt hmax
    rw [Int32.toInt_ofNat_of_lt (by omega), Int32.toInt_maxValue] at hvalue
    omega
  rw [renumber, if_pos ⟨hused, hroom⟩, toString_ofNat (by omega), Int32.ofNat_add (i + 1) 1]
  rfl

def LeastNumbered (used : List String) (name registered : String) : Prop :=
  (name ∉ used ∧ registered = name) ∨
  (name ∈ used ∧ ∃ k ≥ 1, registered = name ++ "_" ++ toString k ∧ registered ∉ used ∧
    ∀ i, 1 ≤ i → i < k → name ++ "_" ++ toString i ∈ used)

lemma numberedName_of_pos (name : String) {k : ℕ} (h : 1 ≤ k) :
    numberedName name k = name ++ "_" ++ toString k := by
  cases k with
  | zero => omega
  | succ k => rfl

lemma leastNumbered_numberedName {used : List String} {name : String} {k : ℕ}
    (hfree : numberedName name k ∉ used) (hused : ∀ i < k, numberedName name i ∈ used) :
    LeastNumbered used name (numberedName name k) := by
  rcases Nat.eq_zero_or_pos k with rfl | hpos
  · exact Or.inl ⟨hfree, rfl⟩
  · refine Or.inr ⟨hused 0 hpos, k, hpos, numberedName_of_pos name hpos, hfree, ?_⟩
    intro i hi hik
    rw [← numberedName_of_pos name hi]
    exact hused i hik

structure RegistersAs (p : Plan) (node : Node) (name registered : String) : Prop where
  ends : ∃ counter, eval (renumber p.usedNames name) (name, 1) = Part.some (registered, counter)
  least : LeastNumbered p.usedNames name registered
  unused : registered ∉ p.usedNames
  usedNames : (p.addNode node name).1.usedNames = p.usedNames ++ [registered]
  nodes : (p.addNode node name).1.nodes = p.nodes ++ [node]
  names : (p.addNode node name).1.names = p.names ++ [registered]
  name? : p.names.length = p.count → p.count < 2 ^ 32 →
    (p.addNode node name).1.name? (p.addNode node name).2 = some registered

/-- With fewer than `2 ^ 31 - 1` names in use the counter has room for every round, and so the search ends
at a free name. -/
theorem addNode_registers (p : Plan) (node : Node) (name : String)
    (h : p.usedNames.toFinset.card < 2 ^ 31 - 1) : p.RegistersAs node name (p.uniqueName name) := by
  have hnext : ∀ i < p.usedNames.toFinset.card, numberedName name i ∈ p.usedNames →
      renumber p.usedNames name (numberedName name i, Int32.ofNat (i + 1)) =
        some (numberedName name (i + 1), Int32.ofNat (i + 1 + 1)) := by
    intro i hi hused
    exact renumber_of_used (by omega) hused
  have hstop : ∀ i, numberedName name i ∉ p.usedNames →
      renumber p.usedNames name (numberedName name i, Int32.ofNat (i + 1)) = none :=
    fun i hfree => if_neg fun hgoes => hfree hgoes.1
  obtain ⟨k, hk, hfree, hused, hends⟩ := eval_fresh (renumber p.usedNames name)
    (fun i => (numberedName name i, Int32.ofNat (i + 1))) (numberedName_injective name) hnext hstop
  have hname : p.uniqueName name = numberedName name k := hk
  refine ⟨⟨Int32.ofNat (k + 1), ?_⟩, ?_, p.uniqueName_not_mem name, rfl, rfl, rfl, ?_⟩
  · rw [hname]
    exact hends
  · rw [hname]
    exact leastNumbered_numberedName hfree hused
  · intro hlength hcount
    have hindex : (p.addNode node name).2.index = p.names.length :=
      (NodeId.index_ofNat hcount).trans hlength.symm
    rw [name?, hindex, names_addNode, List.getElem?_concat_length]

def crowded : Plan :=
  ["t", "t_1", "t_1_1", "t_3"].foldl (fun p name => (p.addSource name (Schema.new name)).1) {}

-- the names asked for look as if they were numbered already
theorem crowded_registers :
    crowded.usedNames.toFinset.card < 2 ^ 31 - 1 ∧
    crowded.RegistersAs (.source (Schema.new "s")) "t" "t_2" ∧
    crowded.RegistersAs (.source (Schema.new "s")) "t_1" "t_1_2" ∧
    crowded.RegistersAs (.source (Schema.new "s")) "t_2" "t_2" := by
  have hcard : crowded.usedNames.toFinset.card < 2 ^ 31 - 1 := by decide
  have hplain : crowded.uniqueName "t" = "t_2" := by decide
  have hnumbered : crowded.uniqueName "t_1" = "t_1_2" := by decide
  have hfree : crowded.uniqueName "t_2" = "t_2" := by decide
  refine ⟨hcard, ?_, ?_, ?_⟩
  · rw [← hplain]
    exact addNode_registers crowded _ "t" hcard
  · rw [← hnumbered]
    exact addNode_registers crowded _ "t_1" hcard
  · nth_rewrite 2 [← hfree]
    exact addNode_registers crowded _ "t_2" hcard

end Plan

end TensorSchema
