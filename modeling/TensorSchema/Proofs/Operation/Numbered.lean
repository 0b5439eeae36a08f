import Mathlib
import TensorSchema.Proofs.FreshName
import TensorSchema.Proofs.Operation.Arguments

/-! Numbered parameters are read up to the first number that is missing, whatever the list of parameters is.
A bound on the numbers never cuts a list short, since distinct numbers have distinct names. -/

namespace TensorSchema

section ReadItems

variable {ε α : Type} {read : ℕ → Except ε (Option α)} {n k : ℕ} {l : List α}

lemma readItems_end (h : read k = .ok none) (fuel : ℕ) : readItems read fuel k = .ok [] := by
  cases fuel with
  | zero => rfl
  | succ fuel =>
    rw [readItems, h]
    rfl

lemma readItems_item {a : α} (h : read k = .ok (some a)) (fuel : ℕ) :
    readItems read (fuel + 1) k = (readItems read fuel (k + 1)).map (a :: ·) := by
  rw [readItems, h]
  rfl

lemma readItems_error {e : ε} (h : read k = .error e) (fuel : ℕ) :
    readItems read (fuel + 1) k = .error e := by
  rw [readItems, h]
  rfl

lemma readItems_fuel (hend : read (k + n) = .ok none) (extra : ℕ) :
    readItems read (n + extra) k = readItems read n k := by
  induction n generalizing k with
  | zero => rw [readItems_end (k := k) hend, readItems_end (k := k) hend]
  | succ n ih =>
    rw [Nat.add_right_comm]
    cases hread : read k with
    | error e => rw [readItems_error hread, readItems_error hread]
    | ok item =>
      cases item with
      | none => rw [readItems_end hread, readItems_end hread]
      | some a =>
        rw [readItems_item hread, readItems_item hread, ih]
        rwa [Nat.add_right_comm]

lemma readItems_eq_ok (hitems : ∀ i, k ≤ i → i < k + n → read i ≠ .ok none) :
    readItems read n k = .ok l ↔
      List.Forall₂ (fun i a => read i = .ok (some a)) (List.range' k n) l := by
  induction n generalizing k l with
  | zero => simp [readItems, eq_comm]
  | succ n ih =>
    have hrest : ∀ i, k + 1 ≤ i → i < k + 1 + n → read i ≠ .ok none :=
      fun i hlow hhigh => hitems i (by omega) (by omega)
    rw [List.range'_succ, List.forall₂_cons_left_iff]
    cases hread : read k with
    | error e => simp [readItems_error hread]
    | ok item =>
      cases item with
      | none => exact absurd hread (hitems k le_rfl (by omega))
      | some a =>
        rw [readItems_item hread, map_eq_ok_iff]
        simp [ih hrest, eq_comm]

lemma exists_forall₂_iff {β : Type} {R : β → α → Prop} {items : List β} :
    (∃ l, List.Forall₂ R items l) ↔ ∀ b ∈ items, ∃ a, R b a := by
  induction items with
  | nil => simp
  | cons b items ih =>
    simp only [List.forall₂_cons_left_iff, List.forall_mem_cons, ← ih]
    constructor
    · rintro ⟨_, a, rest, ha, hrest, rfl⟩
      exact ⟨⟨a, ha⟩, rest, hrest⟩
    · rintro ⟨⟨a, ha⟩, rest, hrest⟩
      exact ⟨a :: rest, a, rest, ha, hrest, rfl⟩

end ReadItems

namespace Operation

section Values

variable {op : Operation} {name : String} {input : Schema} {α : Type} {make : α → Value}
  {read : Parameter → Except SchemaError α}

def value? (op : Operation) (name : String) : Option Value := (op.parameter? name).map Parameter.value

lemma textOf_eq_ok {p : Parameter} {s : String} : op.textOf p = .ok s ↔ p.value = .text s := by
  cases hvalue : p.value <;> simp [textOf, hvalue, Value.text?]

lemma numberOf_eq_ok {p : Parameter} {x : Float} : op.numberOf p = .ok x ↔ p.value = .number x := by
  cases hvalue : p.value <;> simp [numberOf, hvalue, Value.number?]

lemma schemaOf_eq_ok {p : Parameter} {s : Schema} : op.schemaOf p = .ok s ↔ p.value = .schema s := by
  cases hvalue : p.value <;> simp [schemaOf, hvalue, Value.schema?]

lemma required_eq_ok (hread : ∀ p a, read p = .ok a ↔ p.value = make a) {a : α} :
    (op.required name >>= read) = .ok a ↔ op.value? name = some (make a) := by
  rw [required, value?]
  cases op.parameter? name with
  | none => simp [bind_eq_ok_iff]
  | some p => simp [bind_eq_ok_iff, hread]

lemma optional_eq_ok (hread : ∀ p a, read p = .ok a ↔ p.value = make a) {found : Option α} :
    op.optional read name = .ok found ↔ op.value? name = found.map make := by
  rw [optional, value?]
  cases op.parameter? name with
  | none => simp [eq_comm]
  | some p => cases found <;> simp [map_eq_ok_iff, hread]

lemma requiredText_eq_ok {s : String} :
    op.requiredText name = .ok s ↔ op.value? name = some (.text s) :=
  required_eq_ok fun _ _ => textOf_eq_ok

lemma requiredNumber_eq_ok {x : Float} :
    op.requiredNumber name = .ok x ↔ op.value? name = some (.number x) :=
  required_eq_ok fun _ _ => numberOf_eq_ok

lemma requiredSchema_eq_ok {s : Schema} :
    op.requiredSchema name = .ok s ↔ op.value? name = some (.schema s) :=
  required_eq_ok fun _ _ => schemaOf_eq_ok

lemma optionalText_eq_ok {found : Option String} :
    op.optionalText name = .ok found ↔ op.value? name = found.map .text :=
  optional_eq_ok fun _ _ => textOf_eq_ok

def InputIs (op : Operation) (input : Schema) : Prop :=
  op.value? ParameterName.input = some (.schema input) ∨
    op.value? ParameterName.input = none ∧ op.parameters.head?.map Parameter.value = some (.schema input)

lemma inputSchema_eq_ok : op.inputSchema = .ok input ↔ op.InputIs input := by
  rw [inputSchema, InputIs, value?]
  cases op.parameter? ParameterName.input with
  | some p => simp [schemaOf_eq_ok]
  | none =>
    cases op.parameters.head? with
    | none => simp
    | some p => cases hvalue : p.value <;> simp [hvalue, Value.schema?]

end Values

section Gap

variable {op : Operation} {name : ℕ → String} {n : ℕ} {α : Type}
  {read : ℕ → Except SchemaError (Option α)} {l : List α}

def FirstGap (op : Operation) (name : ℕ → String) (n : ℕ) : Prop :=
  op.value? (name n) = none ∧ ∀ i < n, op.value? (name i) ≠ none

lemma value?_eq_none {name : String} :
    op.value? name = none ↔ name ∉ op.parameters.map Parameter.name := by
  simp [value?, parameter?]

lemma FirstGap.unique {m : ℕ} (hm : op.FirstGap name m) (hn : op.FirstGap name n) : m = n :=
  le_antisymm (not_lt.mp fun h => hm.2 n h hn.1) (not_lt.mp fun h => hn.2 m h hm.1)

lemma exists_firstGap (hname : Function.Injective name) :
    ∃ n ≤ op.parameters.length, op.FirstGap name n := by
  obtain ⟨i, hi, hfree⟩ := exists_free_candidate (op.parameters.map Parameter.name) hname
  have hgap : ∃ n, op.value? (name n) = none := ⟨i, value?_eq_none.mpr hfree⟩
  classical
  refine ⟨Nat.find hgap, ?_, Nat.find_spec hgap, fun j hj => Nat.find_min hgap hj⟩
  rw [List.length_map] at hi
  exact (Nat.find_min' hgap (value?_eq_none.mpr hfree)).trans hi

def EndsAtGap (op : Operation) (name : ℕ → String) (read : ℕ → Except SchemaError (Option α)) : Prop :=
  ∀ i, read i = .ok none ↔ op.value? (name i) = none

lemma EndsAtGap.readItems_eq (hends : op.EndsAtGap name read) (hname : Function.Injective name)
    {limit : ℕ} (hlimit : op.parameters.length ≤ limit) (hgap : op.FirstGap name n) :
    readItems read limit 0 = readItems read n 0 := by
  obtain ⟨m, hm, hgap'⟩ := op.exists_firstGap hname
  obtain rfl := hgap.unique hgap'
  obtain ⟨extra, rfl⟩ := Nat.exists_eq_add_of_le (hm.trans hlimit)
  apply readItems_fuel
  rw [zero_add]
  exact (hends n).mpr hgap.1

lemma EndsAtGap.items_eq_ok (hends : op.EndsAtGap name read) (hname : Function.Injective name)
    (hgap : op.FirstGap name n) :
    op.items read = .ok l ↔ List.Forall₂ (fun i a => read i = .ok (some a)) (List.range n) l := by
  rw [items, hends.readItems_eq hname le_rfl hgap, List.range_eq_range']
  apply readItems_eq_ok
  intro i _ hi hnone
  exact hgap.2 i (by omega) ((hends i).mp hnone)

lemma EndsAtGap.items_limit (hends : op.EndsAtGap name read) (hname : Function.Injective name) {limit : ℕ}
    (hlimit : op.parameters.length ≤ limit) : readItems read limit 0 = op.items read := by
  obtain ⟨n, -, hgap⟩ := op.exists_firstGap hname
  rw [items, hends.readItems_eq hname hlimit hgap, hends.readItems_eq hname le_rfl hgap]

end Gap

section Items

open ParameterName (operand dimension lower upper)

variable {op : Operation} {i k : ℕ}

lemma dimension_injective : Function.Injective dimension :=
  fun _ _ h => Nat.repr_injective ((String.append_right_inj _).mp h)

lemma operand_injective : Function.Injective operand :=
  fun _ _ h => Nat.repr_injective ((String.append_right_inj _).mp h)

def ReadsBound (op : Operation) (i : ℕ) (bound : Bound) : Prop :=
  op.value? (dimension i) = some (.text bound.dimension) ∧
    op.value? (lower i) = some (.number bound.lower) ∧ op.value? (upper i) = some (.number bound.upper)

def ReadsPair (op : Operation) (k : ℕ) (pair : String × String) : Prop :=
  op.value? (dimension (2 * k)) = some (.text pair.1) ∧
    op.value? (dimension (2 * k + 1)) = some (.text pair.2)

def ReadsGroup (op : Operation) (i : ℕ) (group : String) : Prop :=
  op.value? (dimension i) = some (.text group)

def ReadsCall (op : Operation) (k : ℕ) (call : AggregateCall) : Prop :=
  op.value? (operand (3 * k + 2)) = some (.text call.output) ∧
    op.value? (operand (3 * k)) = call.function.map .text ∧
    op.value? (operand (3 * k + 1)) = call.source.map .text

lemma item_eq_none {name : String} {α : Type} {read : String → Except SchemaError α} :
    op.item name read = .ok none ↔ op.value? name = none := by
  have htext : op.optionalText name = .ok none ↔ op.value? name = none := optionalText_eq_ok
  rw [← htext, item]
  cases op.optionalText name with
  | error e => simp [bind_eq_ok_iff]
  | ok found => cases found <;> simp [bind_eq_ok_iff, pure, Except.pure]

lemma item_eq_some {name : String} {α : Type} {read : String → Except SchemaError α} {a : α} :
    op.item name read = .ok (some a) ↔ ∃ s, op.value? name = some (.text s) ∧ read s = .ok a := by
  have htext (s : String) : op.optionalText name = .ok (some s) ↔ op.value? name = some (.text s) :=
    optionalText_eq_ok
  simp only [← htext, item]
  cases op.optionalText name with
  | error e => simp [bind_eq_ok_iff]
  | ok found => cases found <;> simp [bind_eq_ok_iff, pure, Except.pure]

lemma bound?_eq_some {bound : Bound} : op.bound? i = .ok (some bound) ↔ op.ReadsBound i bound := by
  simp only [bound?, item_eq_some, bind_eq_ok_iff, requiredNumber_eq_ok, ReadsBound]
  constructor
  · rintro ⟨_, hdimension, _, hlower, _, hupper, h⟩
    obtain rfl := Except.ok.inj h
    exact ⟨hdimension, hlower, hupper⟩
  · rintro ⟨hdimension, hlower, hupper⟩
    exact ⟨_, hdimension, _, hlower, _, hupper, rfl⟩

lemma pair?_eq_some {pair : String × String} : op.pair? k = .ok (some pair) ↔ op.ReadsPair k pair := by
  simp only [pair?, item_eq_some, bind_eq_ok_iff, requiredText_eq_ok, ReadsPair]
  constructor
  · rintro ⟨_, hleft, _, hright, h⟩
    obtain rfl := Except.ok.inj h
    exact ⟨hleft, hright⟩
  · rintro ⟨hleft, hright⟩
    exact ⟨_, hleft, _, hright, rfl⟩

lemma call?_eq_some {call : AggregateCall} : op.call? k = .ok (some call) ↔ op.ReadsCall k call := by
  simp only [call?, item_eq_some, bind_eq_ok_iff, optionalText_eq_ok, ReadsCall]
  constructor
  · rintro ⟨_, houtput, _, hfunction, _, hsource, h⟩
    obtain rfl := Except.ok.inj h
    exact ⟨houtput, hfunction, hsource⟩
  · rintro ⟨houtput, hfunction, hsource⟩
    exact ⟨_, houtput, _, hfunction, _, hsource, rfl⟩

lemma endsAtGap_bound (op : Operation) : op.EndsAtGap dimension op.bound? := fun _ => item_eq_none

lemma endsAtGap_pair (op : Operation) : op.EndsAtGap (fun k => dimension (2 * k)) op.pair? :=
  fun _ => item_eq_none

lemma endsAtGap_group (op : Operation) : op.EndsAtGap dimension fun i => op.optionalText (dimension i) :=
  fun _ => optionalText_eq_ok

lemma endsAtGap_call (op : Operation) : op.EndsAtGap (fun k => operand (3 * k + 2)) op.call? :=
  fun _ => item_eq_none

lemma pair_injective : Function.Injective fun k => dimension (2 * k) := by
  intro i j h
  have := dimension_injective h
  omega

lemma call_injective : Function.Injective fun k => operand (3 * k + 2) := by
  intro i j h
  have := operand_injective h
  omega

end Items

section Arguments

open ParameterName (operand dimension lower upper)

variable {op : Operation} {arguments : Arguments} {m n : ℕ}

lemma subset_eq_ok (hkind : op.kind = .subset) (hgap : op.FirstGap dimension n) :
    op.arguments = .ok arguments ↔ ∃ input bounds, arguments = .subset input bounds ∧
      op.InputIs input ∧ List.Forall₂ op.ReadsBound (List.range n) bounds := by
  simp only [Operation.arguments, hkind, subsetArguments, bind_eq_ok_iff, inputSchema_eq_ok,
    op.endsAtGap_bound.items_eq_ok dimension_injective hgap, bound?_eq_some]
  constructor
  · rintro ⟨input, hinput, bounds, hbounds, h⟩
    exact ⟨input, bounds, (Except.ok.inj h).symm, hinput, hbounds⟩
  · rintro ⟨input, bounds, rfl, hinput, hbounds⟩
    exact ⟨input, hinput, bounds, hbounds, rfl⟩

lemma dimensionJoin_eq_ok (hkind : op.kind = .dimensionJoin)
    (hgap : op.FirstGap (fun k => dimension (2 * k)) n) :
    op.arguments = .ok arguments ↔ ∃ left right pairs, arguments = .dimensionJoin left right pairs ∧
      op.value? (operand 0) = some (.schema left) ∧ op.value? (operand 1) = some (.schema right) ∧
      List.Forall₂ op.ReadsPair (List.range n) pairs := by
  simp only [Operation.arguments, hkind, dimensionJoinArguments, bind_eq_ok_iff, requiredSchema_eq_ok,
    op.endsAtGap_pair.items_eq_ok pair_injective hgap, pair?_eq_some]
  constructor
  · rintro ⟨left, hleft, right, hright, pairs, hpairs, h⟩
    exact ⟨left, right, pairs, (Except.ok.inj h).symm, hleft, hright, hpairs⟩
  · rintro ⟨left, right, pairs, rfl, hleft, hright, hpairs⟩
    exact ⟨left, hleft, right, hright, pairs, hpairs, rfl⟩

lemma aggregate_eq_ok (hkind : op.kind = .aggregate) (hgroups : op.FirstGap dimension m)
    (hcalls : op.FirstGap (fun k => operand (3 * k + 2)) n) :
    op.arguments = .ok arguments ↔ ∃ input groupBy calls, arguments = .aggregate input groupBy calls ∧
      op.InputIs input ∧ List.Forall₂ op.ReadsGroup (List.range m) groupBy ∧
      List.Forall₂ op.ReadsCall (List.range n) calls := by
  simp only [Operation.arguments, hkind, aggregateArguments, bind_eq_ok_iff, inputSchema_eq_ok,
    op.endsAtGap_group.items_eq_ok dimension_injective hgroups,
    op.endsAtGap_call.items_eq_ok call_injective hcalls, call?_eq_some, optionalText_eq_ok]
  constructor
  · rintro ⟨input, hinput, groupBy, hgroupBy, calls, hcalls, h⟩
    exact ⟨input, groupBy, calls, (Except.ok.inj h).symm, hinput, hgroupBy, hcalls⟩
  · rintro ⟨input, groupBy, calls, rfl, hinput, hgroupBy, hcalls⟩
    exact ⟨input, hinput, groupBy, hgroupBy, calls, hcalls, rfl⟩

theorem numbered_exactly (op : Operation) :
    (∀ limit ≥ op.parameters.length,
      readItems op.bound? limit 0 = op.items op.bound? ∧ readItems op.pair? limit 0 = op.items op.pair? ∧
      readItems op.call? limit 0 = op.items op.call? ∧
      readItems (fun i => op.optionalText (dimension i)) limit 0 =
        op.items fun i => op.optionalText (dimension i)) ∧
    (op.kind = .subset → ∃ n, op.FirstGap dimension n ∧
      ((∃ arguments, op.arguments = .ok arguments) ↔
        (∃ input, op.InputIs input) ∧ ∀ i < n, ∃ bound, op.ReadsBound i bound) ∧
      ∀ arguments, op.arguments = .ok arguments → ∃ input bounds, arguments = .subset input bounds ∧
        op.InputIs input ∧ List.Forall₂ op.ReadsBound (List.range n) bounds) ∧
    (op.kind = .dimensionJoin → ∃ n, op.FirstGap (fun k => dimension (2 * k)) n ∧
      ((∃ arguments, op.arguments = .ok arguments) ↔
        (∃ left, op.value? (operand 0) = some (.schema left)) ∧
        (∃ right, op.value? (operand 1) = some (.schema right)) ∧ ∀ k < n, ∃ pair, op.ReadsPair k pair) ∧
      ∀ arguments, op.arguments = .ok arguments →
        ∃ left right pairs, arguments = .dimensionJoin left right pairs ∧
          op.value? (operand 0) = some (.schema left) ∧ op.value? (operand 1) = some (.schema right) ∧
          List.Forall₂ op.ReadsPair (List.range n) pairs) ∧
    (op.kind = .aggregate → ∃ m n, op.FirstGap dimension m ∧
      op.FirstGap (fun k => operand (3 * k + 2)) n ∧
      ((∃ arguments, op.arguments = .ok arguments) ↔ (∃ input, op.InputIs input) ∧
        (∀ i < m, ∃ group, op.ReadsGroup i group) ∧ ∀ k < n, ∃ call, op.ReadsCall k call) ∧
      ∀ arguments, op.arguments = .ok arguments →
        ∃ input groupBy calls, arguments = .aggregate input groupBy calls ∧ op.InputIs input ∧
          List.Forall₂ op.ReadsGroup (List.range m) groupBy ∧
          List.Forall₂ op.ReadsCall (List.range n) calls) := by
  have hrange {α : Type} (n : ℕ) (reads : ℕ → α → Prop) :
      (∀ i < n, ∃ a, reads i a) ↔ ∃ l, List.Forall₂ reads (List.range n) l := by
    simp only [exists_forall₂_iff, List.mem_range]
  refine ⟨fun limit hlimit => ⟨?_, ?_, ?_, ?_⟩, fun hkind => ?_, fun hkind => ?_, fun hkind => ?_⟩
  · exact op.endsAtGap_bound.items_limit dimension_injective hlimit
  · exact op.endsAtGap_pair.items_limit pair_injective hlimit
  · exact op.endsAtGap_call.items_limit call_injective hlimit
  · exact op.endsAtGap_group.items_limit dimension_injective hlimit
  · obtain ⟨n, -, hgap⟩ := op.exists_firstGap dimension_injective
    refine ⟨n, hgap, ?_, fun arguments => (subset_eq_ok hkind hgap).mp⟩
    simp only [subset_eq_ok hkind hgap, hrange]
    constructor
    · rintro ⟨_, input, bounds, rfl, hinput, hbounds⟩
      exact ⟨⟨input, hinput⟩, bounds, hbounds⟩
    · rintro ⟨⟨input, hinput⟩, bounds, hbounds⟩
      exact ⟨_, input, bounds, rfl, hinput, hbounds⟩
  · obtain ⟨n, -, hgap⟩ := op.exists_firstGap pair_injective
    refine ⟨n, hgap, ?_, fun arguments => (dimensionJoin_eq_ok hkind hgap).mp⟩
    simp only [dimensionJoin_eq_ok hkind hgap, hrange]
    constructor
    · rintro ⟨_, left, right, pairs, rfl, hleft, hright, hpairs⟩
      exact ⟨⟨left, hleft⟩, ⟨right, hright⟩, pairs, hpairs⟩
    · rintro ⟨⟨left, hleft⟩, ⟨right, hright⟩, pairs, hpairs⟩
      exact ⟨_, left, right, pairs, rfl, hleft, hright, hpairs⟩
  · obtain ⟨m, -, hgroups⟩ := op.exists_firstGap dimension_injective
    obtain ⟨n, -, hcalls⟩ := op.exists_firstGap call_injective
    refine ⟨m, n, hgroups, hcalls, ?_, fun arguments => (aggregate_eq_ok hkind hgroups hcalls).mp⟩
    simp only [aggregate_eq_ok hkind hgroups hcalls, hrange]
    constructor
    · rintro ⟨_, input, groupBy, calls, rfl, hinput, hgroupBy, hcalls⟩
      exact ⟨⟨input, hinput⟩, ⟨groupBy, hgroupBy⟩, calls, hcalls⟩
    · rintro ⟨⟨input, hinput⟩, ⟨groupBy, hgroupBy⟩, calls, hcalls⟩
      exact ⟨_, input, groupBy, calls, rfl, hinput, hgroupBy, hcalls⟩

def gapped : Operation := .ofKind .subset
  [⟨"dim10", .text "late"⟩, ⟨"inputTar", .schema (.new "t")⟩, ⟨"ub0", .number 5⟩, ⟨"dim0", .text "x"⟩,
    ⟨"lb0", .number 2⟩, ⟨"dim0", .text "again"⟩]

def dangling : Operation := .ofKind .dimensionJoin
  [⟨"operand1", .schema (.new "right")⟩, ⟨"operand0", .schema (.new "left")⟩, ⟨"dim1", .text "b"⟩,
    ⟨"dim0", .text "a"⟩, ⟨"dim2", .text "c"⟩]

def sparse : Operation := .ofKind .aggregate
  [⟨"source", .schema (.new "t")⟩, ⟨"operand5", .text "count"⟩, ⟨"operand2", .text "total"⟩,
    ⟨"operand1", .text "v"⟩]

theorem gapped_numbered :
    (∃ input bounds, gapped.arguments = .ok (.subset input bounds) ∧
      List.Forall₂ gapped.ReadsBound (List.range 1) bounds) ∧
    (¬ ∃ arguments, dangling.arguments = .ok arguments) ∧
    ∃ input groupBy calls, sparse.arguments = .ok (.aggregate input groupBy calls) ∧
      List.Forall₂ sparse.ReadsGroup (List.range 0) groupBy ∧
      List.Forall₂ sparse.ReadsCall (List.range 2) calls := by
  refine ⟨?_, ?_, ?_⟩
  · obtain ⟨-, hsubset, -⟩ := numbered_exactly gapped
    obtain ⟨n, hgap, hsuccess, hexact⟩ := hsubset rfl
    obtain rfl : n = 1 := hgap.unique ⟨by decide, by decide +kernel⟩
    have hfirst : gapped.ReadsBound 0 ⟨"x", 2, 5⟩ :=
      ⟨by decide, by decide +kernel, by decide +kernel⟩
    have hinput : gapped.InputIs (.new "t") := Or.inl (by decide)
    obtain ⟨arguments, hok⟩ := hsuccess.mpr ⟨⟨_, hinput⟩, by simpa using ⟨_, hfirst⟩⟩
    obtain ⟨input, bounds, rfl, -, hbounds⟩ := hexact arguments hok
    exact ⟨input, bounds, hok, hbounds⟩
  · obtain ⟨-, -, hjoin, -⟩ := numbered_exactly dangling
    obtain ⟨n, hgap, hsuccess, -⟩ := hjoin rfl
    obtain rfl : n = 2 := hgap.unique ⟨by decide, by decide +kernel⟩
    intro hok
    obtain ⟨-, -, hpairs⟩ := hsuccess.mp hok
    obtain ⟨pair, -, hright⟩ := hpairs 1 one_lt_two
    have habsent : dangling.value? (dimension (2 * 1 + 1)) = none := by decide
    rw [habsent] at hright
    cases hright
  · obtain ⟨-, -, -, haggregate⟩ := numbered_exactly sparse
    obtain ⟨m, n, hgroups, hcalls, hsuccess, hexact⟩ := haggregate rfl
    obtain rfl : m = 0 := hgroups.unique ⟨by decide, by decide +kernel⟩
    obtain rfl : n = 2 := hcalls.unique ⟨by decide, by decide +kernel⟩
    have hfirst : sparse.ReadsCall 0 ⟨none, some "v", "total"⟩ :=
      ⟨by decide, by decide +kernel, by decide +kernel⟩
    have hsecond : sparse.ReadsCall 1 ⟨none, none, "count"⟩ :=
      ⟨by decide, by decide +kernel, by decide +kernel⟩
    have hinput : sparse.InputIs (.new "t") := Or.inr ⟨by decide, by decide +kernel⟩
    obtain ⟨arguments, hok⟩ := hsuccess.mpr ⟨⟨_, hinput⟩, by simp, by
      intro k hk
      obtain rfl | rfl : k = 0 ∨ k = 1 := by omega
      · exact ⟨_, hfirst⟩
      · exact ⟨_, hsecond⟩⟩
    obtain ⟨input, groupBy, calls, rfl, -, hgroupBy, hcalls⟩ := hexact arguments hok
    exact ⟨input, groupBy, calls, hok, hgroupBy, hcalls⟩

end Arguments

end Operation

end TensorSchema
