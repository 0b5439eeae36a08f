import Mathlib
import TensorSchema.Plan.Trace
import TensorSchema.Proofs.Plan.Sorting

/-! The tree of a trace. The walk over the nodes writes the lines that another one emits, which keeps a list
of places still to be shown: each step takes the first place and emits one line, and the first line of a
node puts its parents in front. -/

namespace TensorSchema.Plan

open Relation (ReflTransGen)

def isOperator (p : Plan) (id : NodeId) : Bool :=
  match p.node? id with
  | some (.operator ..) => true
  | _ => false

def Reads (p : Plan) (id m : NodeId) : Prop := p.isOperator id = true ∧ m ∈ p.parents id

def levelOf (branches : List Branch) : ℕ := branches.length + 1

def Branch.rail : Branch → String
  | middle => "|  "
  | last => "   "

def indentation : List Branch → String
  | [] => ""
  | [b] => b.connector
  | b :: rest => b.rail ++ indentation rest

abbrev Place := List Branch × NodeId

def placesBelow (p : Plan) (branches : List Branch) (id : NodeId) : List Place :=
  (branched (p.shownParents id)).map fun child => (branches ++ [child.1], child.2)

/-- A line of the tree, at the end of the branches that lead to it. A reference stands for a node that
has its line at the given level. -/
inductive TraceLine where
  | node (branches : List Branch) (id : NodeId)
  | reference (branches : List Branch) (id : NodeId) (level : ℕ)
deriving DecidableEq

inductive Origin (p : Plan) (id : NodeId) : String → Prop
  | source (schema : Schema) : p.node? id = some (.source schema) →
      Origin p id (" -> Source(" ++ schema.name ++ ")")
  | operator (kind : OperatorKind) (operator : String) (parameters : List PlanParameter) :
      p.node? id = some (.operator kind operator parameters) →
      Origin p id (" = " ++ operator ++ "(" ++ ", ".intercalate (parameters.map p.argumentText) ++ ")")

namespace TraceLine

def branches : TraceLine → List Branch
  | node branches _ => branches
  | reference branches _ _ => branches

def subject : TraceLine → NodeId
  | node _ id => id
  | reference _ id _ => id

def level (line : TraceLine) : ℕ := levelOf line.branches

def shown? : TraceLine → Option NodeId
  | node _ id => some id
  | reference .. => none

def mark? : TraceLine → Option (NodeId × ℕ)
  | node branches id => some (id, levelOf branches)
  | reference .. => none

def parents (p : Plan) : TraceLine → List NodeId
  | node _ id => p.shownParents id
  | reference .. => []

def text (p : Plan) (known : InferredPlan) : TraceLine → String
  | node branches id => indentation branches ++ p.nodeLabel known (levelOf branches) id ++ "\n"
  | reference branches _ level => indentation branches ++ referenceLabel level ++ "\n"

def Labels (p : Plan) (known : InferredPlan) : TraceLine → String → Prop
  | node branches id, text => ∃ name origin, p.name? id = some name ∧ p.Origin id origin ∧
      text = indentation branches ++ "[L" ++ toString (levelOf branches) ++ "] " ++ name ++ " " ++
        schemaText (known.get? id) ++ origin ++ "\n"
  | reference branches _ level, text =>
      text = indentation branches ++ "-> (Ref to L" ++ toString level ++ ")\n"

def below (p : Plan) : TraceLine → List Place
  | node branches id => p.placesBelow branches id
  | reference .. => []

end TraceLine

def tracerAt (p : Plan) (known : InferredPlan) (start : String) (lines : List TraceLine) : Tracer where
  levels := lines.filterMap TraceLine.mark?
  output := start ++ String.join (lines.map (TraceLine.text p known))

def levelIn? (lines : List TraceLine) (id : NodeId) : Option ℕ :=
  (lines.filterMap TraceLine.mark?).lookup id

def shown (lines : List TraceLine) : List NodeId := lines.filterMap TraceLine.shown?

def oneBelow (level : ℕ) (lines : List TraceLine) : List NodeId :=
  ((lines.takeWhile fun line => level < line.level).filter fun line => line.level = level + 1).map
    TraceLine.subject

structure Unfolds (p : Plan) (target : NodeId) (lines : List TraceLine) : Prop where
  root : lines.head? = some (.node [] target)
  nodup : (shown lines).Nodup
  mem_shown : ∀ id, id ∈ shown lines ↔ ReflTransGen p.Reads target id
  length : lines.length =
    1 + (((shown lines).filter p.isOperator).map fun id => (p.parents id).length).sum
  below : ∀ before line after, lines = before ++ line :: after →
    oneBelow line.level after = line.parents p
  reference : ∀ before branches id level after, lines = before ++ .reference branches id level :: after →
    ∃ place, .node place id ∈ before ∧ level = levelOf place

def lineAt (lines : List TraceLine) (place : Place) : TraceLine :=
  match levelIn? lines place.2 with
  | some level => .reference place.1 place.2 level
  | none => .node place.1 place.2

inductive Emits (p : Plan) : List TraceLine → List Place → List TraceLine → Prop
  | done {lines} : Emits p lines [] []
  | step {lines place pending line added} : line = lineAt lines place →
      Emits p (lines ++ [line]) (line.below p ++ pending) added →
      Emits p lines (place :: pending) (line :: added)

variable {p : Plan} {lines added more : List TraceLine} {line : TraceLine} {branches : List Branch}
  {id m target : NodeId} {place : Place} {pending rest : List Place} {level fuel : ℕ}

section Lines

@[simp] lemma shown_nil : shown [] = [] := rfl

@[simp] lemma shown_append (lines more : List TraceLine) :
    shown (lines ++ more) = shown lines ++ shown more := List.filterMap_append

@[simp] lemma shown_node (branches : List Branch) (id : NodeId) (lines : List TraceLine) :
    shown (.node branches id :: lines) = id :: shown lines := rfl

@[simp] lemma shown_reference (branches : List Branch) (id : NodeId) (level : ℕ)
    (lines : List TraceLine) : shown (.reference branches id level :: lines) = shown lines := rfl

lemma mem_shown : id ∈ shown lines ↔ ∃ branches, .node branches id ∈ lines := by
  induction lines with
  | nil => simp
  | cons line lines ih => cases line <;> simp [ih, exists_or]

lemma map_fst_marks (lines : List TraceLine) :
    (lines.filterMap TraceLine.mark?).map Prod.fst = shown lines := by
  rw [List.map_filterMap]
  apply List.filterMap_congr
  rintro (_ | _) _ <;> rfl

lemma mem_marks : (id, level) ∈ lines.filterMap TraceLine.mark? ↔
    ∃ branches, .node branches id ∈ lines ∧ level = levelOf branches := by
  rw [List.mem_filterMap]
  constructor
  · rintro ⟨line, hline, hmark⟩
    cases line with
    | node branches other =>
      obtain ⟨rfl, rfl⟩ := Prod.mk.inj (Option.some.inj hmark)
      exact ⟨branches, hline, rfl⟩
    | reference => cases hmark
  · rintro ⟨branches, hline, rfl⟩
    exact ⟨_, hline, rfl⟩

lemma levelIn?_eq_none : levelIn? lines id = none ↔ id ∉ shown lines := by
  rw [levelIn?, List.lookup_eq_none_iff, mem_shown]
  constructor
  · rintro h ⟨branches, hline⟩
    simpa using h (id, _) (mem_marks.mpr ⟨branches, hline, rfl⟩)
  · rintro h ⟨other, level⟩ hmark
    obtain ⟨branches, hline, -⟩ := mem_marks.mp hmark
    rw [bne_iff_ne]
    rintro rfl
    exact h ⟨branches, hline⟩

lemma levelIn?_eq_some (h : levelIn? lines id = some level) :
    ∃ branches, .node branches id ∈ lines ∧ level = levelOf branches := by
  obtain ⟨before, after, hsplit, -⟩ := List.lookup_eq_some_iff.mp h
  apply mem_marks.mp
  rw [hsplit]
  simp

lemma lineAt_cases (lines : List TraceLine) (place : Place) :
    (∃ level branches, lineAt lines place = .reference place.1 place.2 level ∧
      .node branches place.2 ∈ lines ∧ level = levelOf branches) ∨
    (lineAt lines place = .node place.1 place.2 ∧ place.2 ∉ shown lines) := by
  rw [lineAt]
  cases h : levelIn? lines place.2 with
  | some level =>
    obtain ⟨branches, hline, hlevel⟩ := levelIn?_eq_some h
    exact .inl ⟨level, branches, rfl, hline, hlevel⟩
  | none => exact .inr ⟨rfl, levelIn?_eq_none.mp h⟩

lemma level_lineAt (lines : List TraceLine) (place : Place) :
    (lineAt lines place).level = levelOf place.1 := by
  rcases lineAt_cases lines place with ⟨_, _, h, _⟩ | ⟨h, _⟩ <;> rw [h] <;> rfl

lemma subject_lineAt (lines : List TraceLine) (place : Place) :
    (lineAt lines place).subject = place.2 := by
  rcases lineAt_cases lines place with ⟨_, _, h, _⟩ | ⟨h, _⟩ <;> rw [h] <;> rfl

end Lines

section Places

lemma shownParents_eq (p : Plan) (id : NodeId) :
    p.shownParents id = if p.isOperator id then p.parents id else [] := by
  unfold shownParents isOperator
  cases p.node? id with
  | none => rfl
  | some node => cases node <;> rfl

lemma mem_shownParents : m ∈ p.shownParents id ↔ p.Reads id m := by
  rw [shownParents_eq, Reads]
  split_ifs with h <;> simp [h]

lemma snd_branched {α : Type} (l : List α) : (branched l).map Prod.snd = l := by
  fun_induction branched l with
  | case1 => rfl
  | case2 => rfl
  | case3 a rest _ ih => rw [List.map_cons, ih]

lemma snd_below (p : Plan) (line : TraceLine) : (line.below p).map Prod.snd = line.parents p := by
  cases line with
  | node branches id =>
    rw [TraceLine.below, placesBelow, List.map_map]
    exact snd_branched _
  | reference => rfl

lemma reads_of_mem_below (h : place ∈ line.below p) : p.Reads line.subject place.2 := by
  have hmem : place.2 ∈ line.parents p := by
    rw [← snd_below]
    exact List.mem_map_of_mem h
  cases line with
  | node => exact mem_shownParents.mp hmem
  | reference => cases h

lemma level_of_mem_below (h : place ∈ line.below p) : levelOf place.1 = line.level + 1 := by
  cases line with
  | node branches id =>
    obtain ⟨child, -, rfl⟩ := List.mem_map.mp h
    simp [levelOf, TraceLine.level, TraceLine.branches]
  | reference => cases h

end Places

section Drawing

lemma childStem_rail (b : Branch) (lead : String) : childStem (b.rail ++ lead) = b.rail ++ childStem lead := by
  rw [← String.toList_inj]
  cases b <;> simp [childStem, replaceAll, Branch.rail, replaceFrom]

lemma childStem_connector (b : Branch) : childStem b.connector = b.rail := by
  rw [← String.toList_inj]
  cases b <;> simp [childStem, replaceAll, Branch.connector, Branch.rail, replaceFrom]

/-- Replacing connectors in a drawing leaves the rails as they are and makes a rail of the connector. -/
lemma childStem_indentation (branches : List Branch) (b : Branch) :
    childStem (indentation branches) ++ b.connector = indentation (branches ++ [b]) := by
  fun_induction indentation branches with
  | case1 => exact String.empty_append
  | case2 c => exact congrArg (· ++ b.connector) (childStem_connector c)
  | case3 c rest hrest ih =>
    rw [childStem_rail, String.append_assoc, ih, List.cons_append, indentation]
    simp

lemma levelOf_concat (branches : List Branch) (b : Branch) :
    levelOf (branches ++ [b]) = levelOf branches + 1 := by
  simp [levelOf]

lemma length_indentation (branches : List Branch) :
    (indentation branches).length = 3 * branches.length := by
  have hconnector (b : Branch) : b.connector.length = 3 := by cases b <;> rfl
  have hrail (b : Branch) : b.rail.length = 3 := by cases b <;> rfl
  fun_induction indentation branches with
  | case1 => rfl
  | case2 b => exact hconnector b
  | case3 b rest _ ih =>
    rw [String.length_append, ih, hrail, List.length_cons]
    omega

lemma tracerAt_node (p : Plan) (known : InferredPlan) (start : String) (lines : List TraceLine)
    (place : Place) : p.tracerAt known start (lines ++ [.node place.1 place.2]) =
      Tracer.writeLine
        { p.tracerAt known start lines with
          levels := (p.tracerAt known start lines).levels ++ [(place.2, levelOf place.1)] }
        (indentation place.1 ++ p.nodeLabel known (levelOf place.1) place.2) := by
  simp [tracerAt, Tracer.writeLine, TraceLine.mark?, TraceLine.text, String.append_assoc]

lemma tracerAt_reference (p : Plan) (known : InferredPlan) (start : String) (lines : List TraceLine)
    (place : Place) (level : ℕ) :
    p.tracerAt known start (lines ++ [.reference place.1 place.2 level]) =
      (p.tracerAt known start lines).writeLine (indentation place.1 ++ referenceLabel level) := by
  simp [tracerAt, Tracer.writeLine, TraceLine.mark?, TraceLine.text, String.append_assoc]

end Drawing

section Walk

lemma Emits.append (h : p.Emits lines pending added) (hrest : p.Emits (lines ++ added) rest more) :
    p.Emits lines (pending ++ rest) (added ++ more) := by
  induction h with
  | done => simpa using hrest
  | step hline _ ih =>
    rw [List.append_assoc, List.append_assoc] at ih
    exact step hline (ih hrest)

lemma Emits.unique (h : p.Emits lines pending added) (h' : p.Emits lines pending more) :
    added = more := by
  induction h generalizing more with
  | done =>
    cases h'
    rfl
  | step hline _ ih =>
    cases h' with
    | step hline' h' =>
      subst hline hline'
      rw [ih h']

lemma Emits.forall_subject {P : NodeId → Prop} (hstep : ∀ id m, P id → p.Reads id m → P m)
    (h : p.Emits lines pending added) (hpending : ∀ place ∈ pending, P place.2) :
    ∀ line ∈ added, P line.subject := by
  induction h with
  | done => simp
  | @step lines place pending line added hline _ ih =>
    rw [List.forall_mem_cons] at hpending ⊢
    have hsubject : P line.subject := by
      rw [hline, subject_lineAt]
      exact hpending.1
    refine ⟨hsubject, ih fun next hnext => ?_⟩
    rcases List.mem_append.mp hnext with hbelow | hlater
    · exact hstep _ _ hsubject (reads_of_mem_below hbelow)
    · exact hpending.2 next hlater

lemma Emits.nodup (h : p.Emits lines pending added) (hlines : (shown lines).Nodup) :
    (shown (lines ++ added)).Nodup := by
  induction h with
  | done => simpa using hlines
  | @step lines place pending line added hline _ ih =>
    rw [List.append_cons]
    apply ih
    rcases lineAt_cases lines place with ⟨_, _, h, _⟩ | ⟨h, hnew⟩
    · simpa [hline, h] using hlines
    · rw [hline, h, shown_append]
      exact List.nodup_append.mpr ⟨hlines, List.nodup_singleton _, by
        rintro a ha b hb rfl
        exact hnew (List.mem_singleton.mp hb ▸ ha)⟩

lemma Emits.perm (h : p.Emits lines pending added) :
    (added.map TraceLine.subject).Perm (pending.map Prod.snd ++ added.flatMap (TraceLine.parents p)) := by
  induction h with
  | done => exact .refl _
  | @step lines place pending line added hline _ ih =>
    have hsubject : line.subject = place.2 := by rw [hline, subject_lineAt]
    rw [List.map_cons, hsubject]
    refine (ih.trans ?_).cons place.2
    rw [List.map_append, snd_below, List.append_assoc, List.flatMap_cons]
    exact List.perm_append_comm_assoc ..

lemma Emits.subject_shown (h : p.Emits lines pending added) :
    ∀ line ∈ added, line.subject ∈ shown (lines ++ added) := by
  induction h with
  | done => simp
  | @step lines place pending line added hline _ ih =>
    rw [List.append_cons]
    refine List.forall_mem_cons.mpr ⟨?_, ih⟩
    rw [shown_append]
    apply List.mem_append_left
    rw [hline, subject_lineAt, mem_shown]
    rcases lineAt_cases lines place with ⟨_, branches, _, hfull, _⟩ | ⟨h, _⟩
    · exact ⟨branches, List.mem_append_left _ hfull⟩
    · exact ⟨place.1, by simp [h]⟩

lemma Emits.reference (h : p.Emits lines pending added) :
    ∀ before branches id level after, added = before ++ .reference branches id level :: after →
      ∃ place, .node place id ∈ lines ++ before ∧ level = levelOf place := by
  induction h with
  | done => simp
  | @step lines place pending line added hline _ ih =>
    intro before branches id level after hadded
    cases before with
    | nil =>
      obtain ⟨rfl, rfl⟩ := List.cons.inj hadded
      rcases lineAt_cases lines place with ⟨_, full, h, hfull, hlevel⟩ | ⟨h, _⟩
      · cases hline.trans h
        exact ⟨full, List.mem_append_left _ hfull, hlevel⟩
      · cases hline.trans h
    | cons _ before =>
      obtain ⟨rfl, rfl⟩ := List.cons.inj hadded
      rw [List.append_cons]
      exact ih before branches id level after rfl

end Walk

section Levels

variable {deeper high low : List Place}

lemma oneBelow_cons_of_lt (h : level + 1 < line.level) :
    oneBelow level (line :: lines) = oneBelow level lines := by
  have hlt : level < line.level := by omega
  simp [oneBelow, hlt, h.ne']

lemma oneBelow_cons_of_eq (h : line.level = level + 1) :
    oneBelow level (line :: lines) = line.subject :: oneBelow level lines := by
  simp [oneBelow, h]

lemma oneBelow_cons_of_le (h : line.level ≤ level) : oneBelow level (line :: lines) = [] := by
  simp [oneBelow, h]

/-- Places that come from nodes unfolded in between do not hide those that wait one level below. -/
lemma Emits.oneBelow_eq (h : p.Emits lines pending added) (hpending : pending = deeper ++ (high ++ low))
    (hdeeper : ∀ place ∈ deeper, level + 1 < levelOf place.1)
    (hhigh : ∀ place ∈ high, levelOf place.1 = level + 1)
    (hlow : ∀ place ∈ low, levelOf place.1 ≤ level) :
    oneBelow level added = high.map Prod.snd := by
  induction h generalizing deeper high with
  | done =>
    obtain ⟨rfl, rfl, rfl⟩ : deeper = [] ∧ high = [] ∧ low = [] := by simpa using hpending.symm
    rfl
  | @step lines place pending line added hline _ ih =>
    have hlevel : line.level = levelOf place.1 := by rw [hline, level_lineAt]
    have hsubject : line.subject = place.2 := by rw [hline, subject_lineAt]
    cases deeper with
    | cons _ deeper =>
      obtain ⟨rfl, rfl⟩ := List.cons.inj hpending
      rw [List.forall_mem_cons] at hdeeper
      rw [oneBelow_cons_of_lt (hlevel ▸ hdeeper.1)]
      refine ih (List.append_assoc ..).symm ?_ hhigh
      intro next hnext
      rcases List.mem_append.mp hnext with hbelow | hlater
      · have hnextLevel := level_of_mem_below hbelow
        omega
      · exact hdeeper.2 next hlater
    | nil =>
      cases high with
      | cons _ high =>
        obtain ⟨rfl, rfl⟩ := List.cons.inj hpending
        rw [List.forall_mem_cons] at hhigh
        rw [oneBelow_cons_of_eq (hlevel.trans hhigh.1), hsubject, List.map_cons]
        congr 1
        refine ih rfl ?_ hhigh.2
        intro next hnext
        have hnextLevel := level_of_mem_below hnext
        omega
      | nil =>
        obtain rfl : place :: pending = low := hpending
        exact oneBelow_cons_of_le (hlevel ▸ hlow place List.mem_cons_self)

def Descending (pending : List Place) : Prop :=
  pending.Pairwise fun place later => levelOf later.1 ≤ levelOf place.1

lemma Emits.parents_below (h : p.Emits lines pending added) (hpending : Descending pending) :
    ∀ before line after, added = before ++ line :: after →
      oneBelow line.level after = line.parents p := by
  induction h with
  | done => simp
  | @step lines place pending line added hline hadded ih =>
    have hlevel : line.level = levelOf place.1 := by rw [hline, level_lineAt]
    obtain ⟨hplace, hrest⟩ := List.pairwise_cons.mp hpending
    rw [← hlevel] at hplace
    intro before other after hsplit
    cases before with
    | nil =>
      obtain ⟨rfl, rfl⟩ := List.cons.inj hsplit
      rw [← snd_below]
      exact hadded.oneBelow_eq (List.nil_append _).symm (by simp) (fun _ => level_of_mem_below) hplace
    | cons _ before =>
      obtain ⟨rfl, rfl⟩ := List.cons.inj hsplit
      refine ih (List.pairwise_append.mpr ⟨?_, hrest, ?_⟩) before other after rfl
      · apply List.pairwise_of_forall_mem_list
        intro a ha b hb
        rw [level_of_mem_below ha, level_of_mem_below hb]
      · intro a ha b hb
        have haLevel := level_of_mem_below ha
        have hbLevel := hplace b hb
        omega

end Levels

section Depth

lemma Room.emits (hregistered : ∀ id, ∀ m ∈ p.parents id, p.contains m = true)
    (hroom : p.Room fuel (shown lines)) (h : p.Emits lines pending added)
    (hpending : ∀ place ∈ pending, p.contains place.2 = true) : p.Room fuel (shown (lines ++ added)) where
  nodup := h.nodup hroom.nodup
  registered := by
    rw [shown_append, List.forall_mem_append]
    refine ⟨hroom.registered, fun id hid => ?_⟩
    obtain ⟨branches, hline⟩ := mem_shown.mp hid
    exact h.forall_subject (fun id m _ hreads => hregistered id m hreads.2) hpending _ hline
  enough := by
    have henough := hroom.enough
    rw [shown_append, List.length_append]
    omega

variable (known : InferredPlan) (start : String)

lemma foldl_traceNode_emits (hregistered : ∀ id, ∀ m ∈ p.parents id, p.contains m = true)
    (hnode : ∀ lines place, p.Room fuel (shown lines) → p.contains place.2 = true →
      ∃ added, p.traceNode known fuel (p.tracerAt known start lines) place.2 (levelOf place.1)
        (indentation place.1) = p.tracerAt known start (lines ++ added) ∧ p.Emits lines [place] added)
    (hroom : p.Room fuel (shown lines)) (hpending : ∀ place ∈ pending, p.contains place.2 = true) :
    ∃ added, pending.foldl (fun t place => p.traceNode known fuel t place.2 (levelOf place.1)
        (indentation place.1)) (p.tracerAt known start lines) = p.tracerAt known start (lines ++ added) ∧
      p.Emits lines pending added := by
  induction pending generalizing lines with
  | nil => exact ⟨[], by rw [List.append_nil]; rfl, .done⟩
  | cons place pending ih =>
    rw [List.forall_mem_cons] at hpending
    obtain ⟨added, htrace, hadded⟩ := hnode lines place hroom hpending.1
    obtain ⟨more, hrest, hmore⟩ :=
      ih (hroom.emits hregistered hadded (by simpa using hpending.1)) hpending.2
    refine ⟨added ++ more, ?_, hadded.append hmore⟩
    rw [List.foldl_cons, htrace, hrest, List.append_assoc]

lemma traceNode_succ (p : Plan) (fuel : ℕ) (lines : List TraceLine) (place : Place) :
    p.traceNode known (fuel + 1) (p.tracerAt known start lines) place.2 (levelOf place.1)
        (indentation place.1) =
      ((lineAt lines place).below p).foldl
        (fun t next => p.traceNode known fuel t next.2 (levelOf next.1) (indentation next.1))
        (p.tracerAt known start (lines ++ [lineAt lines place])) := by
  have hlookup : (p.tracerAt known start lines).levels.lookup place.2 = levelIn? lines place.2 := rfl
  rw [traceNode, lineAt, hlookup]
  cases levelIn? lines place.2 with
  | some level => exact (tracerAt_reference p known start lines place level).symm
  | none =>
    dsimp only
    rw [tracerAt_node, TraceLine.below, placesBelow, List.foldl_map]
    simp only [childStem_indentation, levelOf_concat]

/-- The depth that is left covers the nodes without a line, so the walk is never cut short. -/
lemma traceNode_emits (hregistered : ∀ id, ∀ m ∈ p.parents id, p.contains m = true)
    (hroom : p.Room fuel (shown lines)) (hplace : p.contains place.2 = true) :
    ∃ added, p.traceNode known fuel (p.tracerAt known start lines) place.2 (levelOf place.1)
      (indentation place.1) = p.tracerAt known start (lines ++ added) ∧ p.Emits lines [place] added := by
  induction fuel generalizing lines place with
  | zero => exact (lt_irrefl 0 hroom.pos).elim
  | succ fuel ih =>
    rw [traceNode_succ]
    obtain ⟨added, hfold, hadded⟩ : ∃ added,
        ((lineAt lines place).below p).foldl
          (fun t next => p.traceNode known fuel t next.2 (levelOf next.1) (indentation next.1))
          (p.tracerAt known start (lines ++ [lineAt lines place])) =
            p.tracerAt known start (lines ++ [lineAt lines place] ++ added) ∧
        p.Emits (lines ++ [lineAt lines place]) ((lineAt lines place).below p) added := by
      -- only a node that gets its line uses up depth
      rcases lineAt_cases lines place with ⟨level, _, h, _⟩ | ⟨h, hnew⟩ <;> rw [h]
      · exact ⟨[], by rw [List.append_nil]; rfl, .done⟩
      · apply foldl_traceNode_emits known start hregistered fun _ _ => ih
        · rw [shown_append]
          exact (hroom.cons hnew hplace).perm (List.perm_append_singleton _ _).symm
        · intro next hnext
          exact hregistered _ _ (reads_of_mem_below hnext).2
    refine ⟨lineAt lines place :: added, ?_, .step rfl (by rwa [List.append_nil])⟩
    rw [hfold, List.append_assoc, List.singleton_append]

lemma trace_emits {depth : ℕ} (hdepth : p.count < depth)
    (hregistered : ∀ id, ∀ m ∈ p.parents id, p.contains m = true) (htarget : p.contains target = true) :
    ∃ lines, p.traceNode known depth { output := start } target 1 "" = p.tracerAt known start lines ∧
      p.Emits [] [([], target)] lines := by
  have hroom : p.Room depth (shown []) := ⟨List.nodup_nil, by simp, by simpa using hdepth⟩
  have hplace : p.contains (([], target) : Place).2 = true := htarget
  have hstart : p.tracerAt known start [] = { output := start } := by simp [tracerAt]
  obtain ⟨lines, htrace, hlines⟩ := traceNode_emits known start hregistered hroom hplace
  rw [hstart] at htrace
  exact ⟨lines, htrace, hlines⟩

end Depth

section Tree

lemma length_parents (p : Plan) (lines : List TraceLine) :
    (lines.flatMap (TraceLine.parents p)).length =
      (((shown lines).filter p.isOperator).map fun id => (p.parents id).length).sum := by
  induction lines with
  | nil => rfl
  | cons line lines ih =>
    rw [List.flatMap_cons, List.length_append, ih]
    cases line with
    | node branches id =>
      rw [TraceLine.parents, shownParents_eq, shown_node]
      by_cases h : p.isOperator id <;> simp [h]
    | reference => simp [TraceLine.parents]

lemma Emits.mem_shown_iff (h : p.Emits [] [([], target)] lines) :
    id ∈ shown lines ↔ ReflTransGen p.Reads target id := by
  have hsubject : ∀ m, m ∈ target :: lines.flatMap (TraceLine.parents p) → m ∈ shown lines := by
    intro m hm
    obtain ⟨line, hline, rfl⟩ := List.mem_map.mp (h.perm.mem_iff.mpr hm)
    exact h.subject_shown line hline
  constructor
  · intro hid
    obtain ⟨branches, hline⟩ := mem_shown.mp hid
    exact h.forall_subject (fun _ _ hreached hreads => hreached.tail hreads)
      (by simp [ReflTransGen.refl]) _ hline
  · intro hreached
    induction hreached with
    | refl => exact hsubject target List.mem_cons_self
    | tail _ hreads ih =>
      obtain ⟨branches, hline⟩ := mem_shown.mp ih
      apply hsubject _ (List.mem_cons_of_mem _ _)
      exact List.mem_flatMap.mpr ⟨_, hline, mem_shownParents.mpr hreads⟩

lemma Emits.unfolds (h : p.Emits [] [([], target)] lines) : p.Unfolds target lines where
  root := by
    cases h with
    | step hline => exact congrArg some hline
  nodup := h.nodup List.nodup_nil
  mem_shown _ := h.mem_shown_iff
  length := by
    have hlength := h.perm.length_eq
    rwa [List.length_map, List.length_append, length_parents, List.length_map] at hlength
  below := h.parents_below (List.pairwise_singleton _ _)
  reference := h.reference

lemma exists_origin (h : p.contains id = true) : p.Origin id (p.originText id) := by
  obtain ⟨node, hnode⟩ : ∃ node, p.node? id = some node := ⟨_, List.getElem?_eq_getElem (contains_iff.mp h)⟩
  rw [originText, hnode]
  cases node with
  | source schema => exact .source schema hnode
  | operator kind operator parameters =>
    have horigin := Origin.operator kind operator parameters hnode
    simpa only [callText, String.append_assoc] using horigin

lemma labels_text (known : InferredPlan) (hnames : p.count ≤ p.names.length)
    (hline : p.contains line.subject = true) : line.Labels p known (line.text p known) := by
  cases line with
  | node branches id =>
    have hname : p.name? id = some _ :=
      List.getElem?_eq_getElem ((contains_iff.mp hline).trans_le hnames)
    refine ⟨_, _, hname, exists_origin hline, ?_⟩
    simp only [TraceLine.text, nodeLabel, hname, Option.getD_some, String.append_assoc]
  | reference branches id level =>
    simp only [TraceLine.Labels, TraceLine.text, referenceLabel, String.append_assoc]
    rfl

theorem trace_unfolds (p : Plan) (known : InferredPlan) (target : NodeId)
    (hregistered : ∀ id, ∀ m ∈ p.parents id, p.contains m = true) (htarget : p.contains target = true)
    (hnames : p.count ≤ p.names.length) :
    ∃ lines : List TraceLine, p.Unfolds target lines ∧
      (∀ depth start, p.count < depth →
        p.traceNode known depth { output := start } target 1 "" = p.tracerAt known start lines) ∧
      (∃ name, p.name? target = some name ∧ p.trace known target =
        "SCHEMA TRACE for node '" ++ name ++ "':\n" ++ ruler ++ "\n" ++
          String.join (lines.map (TraceLine.text p known))) ∧
      ∀ line ∈ lines, line.Labels p known (line.text p known) ∧
        (indentation line.branches).length = 3 * (line.level - 1) := by
  obtain ⟨lines, -, hlines⟩ := trace_emits known "" (Nat.lt_succ_self _) hregistered htarget
  have htrace : ∀ depth start, p.count < depth →
      p.traceNode known depth { output := start } target 1 "" = p.tracerAt known start lines := by
    intro depth start hdepth
    obtain ⟨others, htrace, hothers⟩ := trace_emits known start hdepth hregistered htarget
    rw [htrace, hothers.unique hlines]
  refine ⟨lines, hlines.unfolds, htrace, ?_, ?_⟩
  · have hname : p.name? target = some _ :=
      List.getElem?_eq_getElem ((contains_iff.mp htarget).trans_le hnames)
    refine ⟨_, hname, ?_⟩
    simp only [trace, hname, htrace _ _ (Nat.lt_succ_self _)]
    rfl
  · intro line hline
    have hsubject := hlines.forall_subject (P := (p.contains · = true))
      (fun id m _ hreads => hregistered id m hreads.2) (by simpa using htarget) line hline
    exact ⟨labels_text known hnames hsubject, length_indentation line.branches⟩

def knotted : Plan where
  nodes := [.operator .logical "and" [], .operator .filter "filter" [], leaf]
  names := ["both", "kept", "base"]
  parentColumn := [⟨1⟩, ⟨1⟩, ⟨2⟩, ⟨0⟩]
  parentSpans := [⟨0, 3⟩, ⟨3, 1⟩, ⟨0, 0⟩]

theorem knotted_unfolds : ∃ lines, knotted.Unfolds ⟨0⟩ lines ∧
    knotted.traceNode {} 4 {} ⟨0⟩ 1 "" = knotted.tracerAt {} "" lines ∧
    ReflTransGen knotted.Reads ⟨0⟩ ⟨2⟩ ∧
    (String.join (lines.map (TraceLine.text knotted {})) =
      "[L1] both [?] = and()\n|--[L2] kept [?] = filter()\n|  `---> (Ref to L1)\n" ++
      "|---> (Ref to L2)\n`--[L2] base [?] -> Source()\n") := by
  have hcolumn : ∀ m ∈ knotted.parentColumn, knotted.contains m = true := by decide
  obtain ⟨lines, hunfolds, htrace, -⟩ := trace_unfolds knotted {} ⟨0⟩
    (fun _ _ hm => hcolumn _ (mem_parentColumn hm)) (by decide) (by decide)
  have htext := htrace 4 "" (by decide)
  refine ⟨lines, hunfolds, htext, (hunfolds.mem_shown ⟨2⟩).mp ?_, ?_⟩
  · rw [← map_fst_marks]
    change _ ∈ (knotted.tracerAt {} "" lines).levels.map Prod.fst
    rw [← htext]
    decide
  · have houtput : (knotted.tracerAt {} "" lines).output =
        String.join (lines.map (TraceLine.text knotted {})) := String.empty_append
    rw [← houtput, ← htext]
    decide

end Tree

end TensorSchema.Plan
