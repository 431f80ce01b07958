import DocQuery.Proofs.Reading

/-! Sequences of operands.

An operand is a leaf or a pair of parentheses. `Tree.ofSequence?` makes a tree of operands
joined by "and" and "or"; `ofSequence?_eq` gives it as the disjunction of the sequence's
runs. `ofSequence?_spells`: that tree is in normal form and is spelled as the sequence
was. -/
namespace DocQuery.Tree

open DocQuery.Symbol

variable {α : Type}

/-! ### Spelling -/

/-- The symbols that spell a tree out. -/
def spelling (t : Tree α) : List (Symbol α) := t.layout (fun _ a => [.atom a]) none

def memberSpelling (j : Joiner) (t : Tree α) : List (Symbol α) :=
  if Flat.needsParens j t then parenthesized t.spelling else t.spelling

theorem layout_atom (inside : Option Joiner) (t : Tree α) :
    t.layout (fun _ a => [.atom a]) inside = t.spelling := by
  cases t <;> rfl

theorem spelling_node (j : Joiner) (members : List (Tree α)) :
    (node j members).spelling = joined j (members.map (memberSpelling j)) := by
  have hmember : memberLayout (fun _ a => [Symbol.atom a]) j = memberSpelling (α := α) j := by
    funext t
    rw [memberLayout, layout_atom, memberSpelling]
  rw [spelling, layout_node, hmember]

theorem spelling_group (t : Tree α) : (group t).spelling = parenthesized t.spelling := rfl

theorem needsParens_or (t : Tree α) : Flat.needsParens .or t = false := by
  cases t <;> rfl

theorem memberSpelling_or (t : Tree α) : memberSpelling .or t = t.spelling := by
  rw [memberSpelling, needsParens_or]
  rfl

theorem atoms_spelling (t : Tree α) : atoms t.spelling = t.leaves := by
  rw [spelling, atoms_layout (f := fun a => [a]) (fun _ _ => rfl), List.flatMap_singleton']

/-- What a normal form is spelled as reads as its own truth. -/
theorem spelling_reads {t : Tree α} (h : t.Normal) (truth : α → Bool) :
    Reads truth .disjunction t.spelling (t.eval truth) :=
  (layout_reads h (fun a _ inside => (Reads.atom a).ofOperandIn inside) none).widen

/-! ### Operands -/

/-- A normal form that is no conjunction or disjunction. -/
structure Operand (t : Tree α) : Prop where
  normal : t.Normal
  whole : t.joiner? = none

theorem operand_leaf (a : α) : (leaf a).Operand := ⟨.leaf a, rfl⟩

theorem operand_group {t : Tree α} (h : t.Normal) (wide : ∀ a, t ≠ .leaf a) : (group t).Operand :=
  ⟨.group h wide, rfl⟩

theorem Operand.memberSpelling {t : Tree α} (h : t.Operand) (j : Joiner) :
    t.memberSpelling j = t.spelling := by
  cases t with
  | leaf a => rfl
  | group t => rfl
  | node k members => exact nomatch h.whole

/-- What a disjunction in parentheses is without them; any other tree is kept. -/
theorem dropImplied_cases (t : Tree α) :
    (∃ members, t = group (node .or members) ∧ t.dropImplied = node .or members) ∨
      ((∀ members, t ≠ group (node .or members)) ∧ t.dropImplied = t) := by
  cases t with
  | leaf a => exact .inr ⟨nofun, rfl⟩
  | node j members => exact .inr ⟨nofun, rfl⟩
  | group t =>
    cases t with
    | leaf a => exact .inr ⟨nofun, rfl⟩
    | group t => exact .inr ⟨nofun, rfl⟩
    | node j members =>
      cases j with
      | and => exact .inr ⟨nofun, rfl⟩
      | or => exact .inl ⟨members, rfl, rfl⟩

/-- Without the parentheses that are implied, a member of a conjunction is still one that the
conjunction keeps whole. -/
theorem Normal.dropImplied {t : Tree α} (h : t.Normal) (hj : t.joiner? ≠ some .and) :
    t.dropImplied.Normal ∧ t.dropImplied.joiner? ≠ some .and := by
  rcases dropImplied_cases t with ⟨members, rfl, hdrop⟩ | ⟨-, hdrop⟩
  · rw [hdrop]
    cases h with
    | group normal _ => exact ⟨normal, nofun⟩
  · rw [hdrop]
    exact ⟨h, hj⟩

/-- The parentheses are written with or without a group for them. -/
theorem memberSpelling_dropImplied (t : Tree α) :
    t.dropImplied.memberSpelling .and = t.memberSpelling .and := by
  rcases dropImplied_cases t with ⟨members, rfl, hdrop⟩ | ⟨-, hdrop⟩
  · rw [hdrop]
    rfl
  · rw [hdrop]

/-! ### Runs -/

/-- The normal form of a run. -/
def runTree : List (Tree α) → Tree α
  | [t] => t
  | run => node .and (run.map dropImplied)

/-- A run of operands. -/
structure IsRun (run : List (Tree α)) : Prop where
  ne_nil : run ≠ []
  operands : ∀ t ∈ run, t.Operand

theorem IsRun.runTree {run : List (Tree α)} (h : IsRun run) :
    (runTree run).Normal ∧ (Tree.runTree run).joiner? ≠ some .or ∧
      (Tree.runTree run).spelling = joined .and (run.map spelling) := by
  match run, h with
  | [], h => exact absurd rfl h.ne_nil
  | [t], h =>
    have ht := h.operands t (List.mem_singleton_self t)
    refine ⟨ht.normal, ?_, rfl⟩
    rw [Tree.runTree, ht.whole]
    exact nofun
  | t :: u :: rest, h =>
    have hdrop : ∀ x ∈ (t :: u :: rest).map Tree.dropImplied, x.Normal ∧ x.joiner? ≠ some .and := by
      intro x hx
      obtain ⟨y, hy, rfl⟩ := List.mem_map.mp hx
      have hw : y.joiner? ≠ some .and := by
        rw [(h.operands y hy).whole]
        exact nofun
      exact (h.operands y hy).normal.dropImplied hw
    refine ⟨.node (by simp) (fun x hx => (hdrop x hx).1) (fun x hx => (hdrop x hx).2), nofun, ?_⟩
    rw [Tree.runTree, spelling_node, List.map_map]
    · refine congrArg _ (List.map_congr_left fun x hx => ?_)
      exact (memberSpelling_dropImplied x).trans ((h.operands x hx).memberSpelling .and)
    · exact nofun

theorem IsRun.normalize_ofRun {run : List (Tree α)} (h : IsRun run) :
    (ofRun run).normalize = Tree.runTree run := by
  match run, h with
  | [], h => exact absurd rfl h.ne_nil
  | [t], h =>
    have ht := h.operands t (List.mem_singleton_self t)
    have hj : t.joiner? ≠ some .and := by
      rw [ht.whole]
      exact nofun
    show collapse .and (absorb .and t.normalize ++ []) = t
    rw [normalize_of_normal ht.normal, absorb_of_normal ht.normal hj]
    rfl
  | t :: u :: rest, h => exact normalize_of_normal h.runTree.1

/-- All runs of a sequence. -/
def allRuns (t : Tree α) (rest : List (Joiner × Tree α)) : List (List (Tree α)) :=
  (runs t rest).1 :: (runs t rest).2

theorem allRuns_and (t u : Tree α) (rest : List (Joiner × Tree α)) :
    allRuns t ((.and, u) :: rest) = (t :: (runs u rest).1) :: (runs u rest).2 := rfl

theorem allRuns_or (t u : Tree α) (rest : List (Joiner × Tree α)) :
    allRuns t ((.or, u) :: rest) = [t] :: allRuns u rest := rfl

theorem runs_ne_nil (t : Tree α) (rest : List (Joiner × Tree α)) : (runs t rest).1 ≠ [] := by
  match rest with
  | [] => exact nofun
  | (.and, _) :: _ => exact nofun
  | (.or, _) :: _ => exact nofun

theorem isRun_allRuns {t : Tree α} {rest : List (Joiner × Tree α)} (ht : t.Operand)
    (hrest : ∀ m ∈ rest, m.2.Operand) : ∀ run ∈ allRuns t rest, IsRun run := by
  have hone : IsRun [t] := ⟨List.cons_ne_nil t [], fun x hx => List.mem_singleton.mp hx ▸ ht⟩
  induction rest generalizing t with
  | nil =>
    intro run hrun
    exact List.mem_singleton.mp hrun ▸ hone
  | cons m rest ih =>
    obtain ⟨j, u⟩ := m
    have hu := hrest (j, u) (List.mem_cons_self ..)
    have htail := ih hu (fun m hm => hrest m (List.mem_cons_of_mem _ hm))
      ⟨List.cons_ne_nil u [], fun x hx => List.mem_singleton.mp hx ▸ hu⟩
    intro run hrun
    cases j with
    | and =>
      rcases List.mem_cons.mp hrun with rfl | hrun
      · have hfirst := htail _ (List.mem_cons_self ..)
        exact ⟨List.cons_ne_nil t _, List.forall_mem_cons.mpr ⟨ht, hfirst.operands⟩⟩
      · exact htail run (List.mem_cons_of_mem _ hrun)
    | or =>
      rcases List.mem_cons.mp hrun with rfl | hrun
      · exact hone
      · exact htail run hrun

/-- The tree of a sequence of operands is the disjunction of its runs. -/
theorem ofSequence?_eq {j : Joiner} {t : Tree α} {rest : List (Joiner × Tree α)} (ht : t.Operand)
    (hrest : ∀ m ∈ rest, m.2.Operand) :
    ofSequence? ((j, t) :: rest) = some (collapse .or ((allRuns t rest).map runTree)) := by
  have hrun := isRun_allRuns ht hrest
  have habsorb : ∀ run ∈ allRuns t rest, absorb .or (ofRun run).normalize = [runTree run] := by
    intro run h
    rw [(hrun run h).normalize_ofRun]
    exact absorb_of_normal (hrun run h).runTree.1 (hrun run h).runTree.2.1
  show some (node .or ((allRuns t rest).map ofRun)).normalize = _
  rw [normalize_node, List.flatMap_map, List.flatMap_congr habsorb, ← List.map_eq_flatMap]

/-! ### What a sequence spells -/

/-- The symbols of a sequence, where the first member's joiner is left out. -/
def written : List (Joiner × Tree α) → List (Symbol α)
  | [] => []
  | (_, t) :: rest => t.spelling ++ rest.flatMap fun m => .joiner m.1 :: m.2.spelling

theorem written_append {seq more : List (Joiner × Tree α)} (hne : seq ≠ []) :
    written (seq ++ more) = written seq ++ more.flatMap fun m => .joiner m.1 :: m.2.spelling := by
  cases seq with
  | nil => exact absurd rfl hne
  | cons m rest => simp [written]

theorem joined_cons (j : Joiner) (part : List (Symbol α)) {rest : List (List (Symbol α))}
    (hne : rest ≠ []) : joined j (part :: rest) = part ++ .joiner j :: joined j rest := by
  cases rest with
  | nil => exact absurd rfl hne
  | cons next rest => rfl

theorem joined_append_head (j : Joiner) (front part : List (Symbol α))
    (rest : List (List (Symbol α))) :
    joined j ((front ++ part) :: rest) = front ++ joined j (part :: rest) := by
  cases rest with
  | nil => rfl
  | cons next rest => simp [joined]

/-- A sequence spells its runs. -/
theorem written_eq_joined (j : Joiner) (t : Tree α) (rest : List (Joiner × Tree α)) :
    written ((j, t) :: rest) =
      joined .or ((allRuns t rest).map fun run => joined .and (run.map spelling)) := by
  induction rest generalizing j t with
  | nil => simp [written, allRuns, runs, joined]
  | cons m rest ih =>
    obtain ⟨k, u⟩ := m
    have hsplit : written ((j, t) :: (k, u) :: rest) =
        t.spelling ++ .joiner k :: written ((k, u) :: rest) := by simp [written]
    rw [hsplit, ih k u]
    cases k with
    | or =>
      rw [allRuns_or, List.map_cons, joined_cons]
      · rfl
      · exact List.cons_ne_nil _ _
    | and =>
      have hhead : joined .and ((t :: (runs u rest).1).map spelling) =
          (t.spelling ++ [.joiner .and]) ++ joined .and ((runs u rest).1.map spelling) := by
        rw [List.map_cons, joined_cons]
        · simp
        · exact fun h => runs_ne_nil u rest (List.map_eq_nil_iff.mp h)
      rw [allRuns_and, List.map_cons, hhead, joined_append_head]
      simp [allRuns]

theorem spelling_collapse_or {trees : List (Tree α)} (hne : trees ≠ []) :
    (collapse .or trees).spelling = joined .or (trees.map spelling) := by
  match trees with
  | [] => exact absurd rfl hne
  | [t] => rfl
  | t :: u :: rest =>
    have hseveral : 2 ≤ (t :: u :: rest).length := by simp
    rw [collapse_of_several hseveral, spelling_node, List.map_congr_left fun x _ => memberSpelling_or x]

/-- Only a sequence of one leaf spells a lone atom. -/
theorem eq_of_written_eq_atom {seq : List (Joiner × Tree α)} {a : α} (h : ∀ m ∈ seq, m.2.Operand)
    (hw : written seq = [.atom a]) : ∃ j, seq = [(j, .leaf a)] := by
  match seq with
  | [] => exact nomatch hw
  | (j, t) :: rest =>
    cases t with
    | node k members => exact nomatch (h _ (List.mem_cons_self ..)).whole
    | group t => exact nomatch hw
    | leaf b =>
      obtain ⟨hatom, htail⟩ := List.cons.inj hw
      obtain rfl := Symbol.atom.inj hatom
      cases rest with
      | nil => exact ⟨j, rfl⟩
      | cons m rest => exact nomatch htail

/-- The tree of a sequence of operands is in normal form and spelled as the sequence is. It
is a leaf for a sequence of one leaf only. -/
theorem ofSequence?_spells {seq : List (Joiner × Tree α)} (hne : seq ≠ [])
    (h : ∀ m ∈ seq, m.2.Operand) :
    ∃ t, ofSequence? seq = some t ∧ t.Normal ∧ t.spelling = written seq ∧
      ∀ a, t = .leaf a → ∃ j, seq = [(j, .leaf a)] := by
  match seq with
  | [] => exact absurd rfl hne
  | (j, t) :: rest =>
    have ht : t.Operand := h (j, t) (List.mem_cons_self ..)
    have hrest : ∀ m ∈ rest, m.2.Operand := fun m hm => h m (List.mem_cons_of_mem _ hm)
    have hrun := isRun_allRuns ht hrest
    have htrees : (allRuns t rest).map runTree ≠ [] := nofun
    have hspelling : (collapse .or ((allRuns t rest).map runTree)).spelling =
        written ((j, t) :: rest) := by
      rw [spelling_collapse_or htrees, written_eq_joined, List.map_map]
      exact congrArg _ (List.map_congr_left fun run hr => (hrun run hr).runTree.2.2)
    refine ⟨_, ofSequence?_eq ht hrest, ?_, hspelling, ?_⟩
    · apply collapse_normal htrees
      intro x hx
      obtain ⟨run, hr, rfl⟩ := List.mem_map.mp hx
      exact ⟨(hrun run hr).runTree.1, (hrun run hr).runTree.2.1⟩
    · intro a ha
      rw [ha] at hspelling
      exact eq_of_written_eq_atom h hspelling.symm

end DocQuery.Tree
