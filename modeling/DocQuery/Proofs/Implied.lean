import DocQuery.Proofs.Sequence

/-! Implied parentheses.

A disjunction inside a conjunction is written in parentheses anyway, so a group around it says
nothing more (`spelling_withoutImplied`). A normal form without such groups is the tree of the
sequence that it is spelled as (`ofSequence?_items`). -/
namespace DocQuery.Tree

variable {α : Type}

/-! ### Dropping them -/

mutual

/-- The tree without the groups around a disjunction inside a conjunction. -/
def withoutImplied : Tree α → Tree α
  | leaf a => leaf a
  | node j members => node j (withoutImpliedIn j members)
  | group t => group (withoutImplied t)

def withoutImpliedIn (j : Joiner) : List (Tree α) → List (Tree α)
  | [] => []
  | t :: rest =>
    (if j = .and then (withoutImplied t).dropImplied else withoutImplied t) ::
      withoutImpliedIn j rest

end

/-- No group stands around a disjunction inside a conjunction. -/
inductive NoImplied : Tree α → Prop where
  | leaf (a : α) : NoImplied (leaf a)
  | node {j : Joiner} {members : List (Tree α)} (inner : ∀ t ∈ members, NoImplied t)
      (bare : j = .and → ∀ t ∈ members, ∀ disjuncts, t ≠ .group (.node .or disjuncts)) :
      NoImplied (node j members)
  | group {t : Tree α} (inner : NoImplied t) : NoImplied (group t)

/-- A member of a group joined by `j` without the implied groups. -/
def withoutImpliedMember (j : Joiner) (t : Tree α) : Tree α :=
  if j = .and then t.withoutImplied.dropImplied else t.withoutImplied

theorem withoutImpliedIn_eq_map (j : Joiner) (members : List (Tree α)) :
    withoutImpliedIn j members = members.map (withoutImpliedMember j) := by
  induction members with
  | nil => rfl
  | cons t rest ih =>
    rw [withoutImpliedIn, ih]
    rfl

theorem withoutImplied_node (j : Joiner) (members : List (Tree α)) :
    (node j members).withoutImplied = node j (members.map (withoutImpliedMember j)) := by
  rw [withoutImplied, withoutImpliedIn_eq_map]

theorem joiner?_withoutImplied (t : Tree α) : t.withoutImplied.joiner? = t.joiner? := by
  cases t <;> rfl

theorem NoImplied.withoutImplied {t : Tree α} (h : t.NoImplied) : t.withoutImplied = t := by
  induction h with
  | leaf a => rfl
  | @node j members inner bare ih =>
    have hmember : ∀ t ∈ members, withoutImpliedMember j t = t := by
      intro t ht
      rw [withoutImpliedMember, ih t ht]
      split
      · next hj =>
        rcases dropImplied_cases t with ⟨disjuncts, hd, -⟩ | ⟨-, hdrop⟩
        · exact absurd hd (bare hj t ht disjuncts)
        · exact hdrop
      · rfl
    rw [withoutImplied_node, List.map_congr_left hmember, List.map_id']
  | group _ ih => rw [Tree.withoutImplied, ih]

theorem withoutImplied_noImplied (t : Tree α) : t.withoutImplied.NoImplied := by
  induction t with
  | leaf a => exact .leaf a
  | group t ih => exact .group ih
  | node j members ih =>
    rw [withoutImplied_node]
    refine .node ?_ ?_
    · intro x hx
      obtain ⟨t, ht, rfl⟩ := List.mem_map.mp hx
      rw [withoutImpliedMember]
      split
      · rcases dropImplied_cases t.withoutImplied with ⟨disjuncts, hd, hdrop⟩ | ⟨-, hdrop⟩
        · have hinner := ih t ht
          rw [hd] at hinner
          rw [hdrop]
          cases hinner with
          | group inner => exact inner
        · rw [hdrop]
          exact ih t ht
      · exact ih t ht
    · rintro rfl x hx disjuncts rfl
      obtain ⟨t, -, ht⟩ := List.mem_map.mp hx
      rcases dropImplied_cases t.withoutImplied with ⟨_, _, hdrop⟩ | ⟨hbare, hdrop⟩
      · exact nomatch hdrop.symm.trans ht
      · exact hbare disjuncts (hdrop.symm.trans ht)

theorem withoutImpliedMember_normal {j : Joiner} {t : Tree α} (h : t.withoutImplied.Normal)
    (hj : t.joiner? ≠ some j) :
    (withoutImpliedMember j t).Normal ∧ (withoutImpliedMember j t).joiner? ≠ some j := by
  rw [← joiner?_withoutImplied t] at hj
  rw [withoutImpliedMember]
  split
  · next hand =>
    subst hand
    exact h.dropImplied hj
  · exact ⟨h, hj⟩

/-- A normal form is still one. -/
theorem Normal.withoutImplied {t : Tree α} (h : t.Normal) : t.withoutImplied.Normal := by
  induction h with
  | leaf a => exact .leaf a
  | @node j members several _ apart ih =>
    have hmember : ∀ x ∈ members.map (withoutImpliedMember j), x.Normal ∧ x.joiner? ≠ some j := by
      intro x hx
      obtain ⟨t, ht, rfl⟩ := List.mem_map.mp hx
      exact withoutImpliedMember_normal (ih t ht) (apart t ht)
    rw [withoutImplied_node]
    exact .node (by simpa using several) (fun x hx => (hmember x hx).1) fun x hx => (hmember x hx).2
  | @group t _ wide ih =>
    refine .group ih fun a ha => ?_
    cases t with
    | leaf b => exact wide b rfl
    | node j members => exact nomatch ha
    | group t => exact nomatch ha

/-- Whatever is made of trees from their parts is made of the tree without implied groups too, if
an implied group is nothing to its conjunction: `g` is made of a tree, and `member j` of a member
of a group joined by `j`. -/
theorem invariant_withoutImplied {β γ : Type} (g : Tree α → β) (member : Joiner → Tree α → γ)
    (hgroup : ∀ t u, g t = g u → g (group t) = g (group u))
    (hnode : ∀ j ts us, ts.map (member j) = us.map (member j) → g (node j ts) = g (node j us))
    (hmember : ∀ j t, g t.withoutImplied = g t → member j t.withoutImplied = member j t)
    (himplied : ∀ t, member .and t.dropImplied = member .and t) (t : Tree α) :
    g t.withoutImplied = g t := by
  induction t with
  | leaf a => rfl
  | group t ih => exact hgroup _ _ ih
  | node j members ih =>
    rw [withoutImplied_node]
    refine hnode j _ _ ?_
    rw [List.map_map]
    refine List.map_congr_left fun t ht => ?_
    show member j (withoutImpliedMember j t) = member j t
    rw [withoutImpliedMember]
    split
    · next hand =>
      subst hand
      exact (himplied _).trans (hmember .and t (ih t ht))
    · exact hmember j t (ih t ht)

theorem needsParens_withoutImplied (j : Joiner) (t : Tree α) :
    Flat.needsParens j t.withoutImplied = Flat.needsParens j t := by
  cases t <;> rfl

/-- It is spelled as before. -/
theorem spelling_withoutImplied (t : Tree α) : t.withoutImplied.spelling = t.spelling := by
  refine invariant_withoutImplied spelling (fun j t => t.memberSpelling j) ?_ ?_ ?_ ?_ t
  · intro t u h
    rw [spelling_group, h, spelling_group]
  · intro j ts us h
    rw [spelling_node, spelling_node, h]
  · intro j t h
    show t.withoutImplied.memberSpelling j = t.memberSpelling j
    rw [memberSpelling, memberSpelling, needsParens_withoutImplied, h]
  · exact memberSpelling_dropImplied

/-! ### The sequence of a tree -/

mutual

/-- The operands that a tree is read as, with the joiner before each; `j` is the one before
the first. -/
def items (j : Joiner) : Tree α → List (Joiner × Tree α)
  | leaf a => [(j, leaf a)]
  | node k members => memberItems k j members
  | group t => [(j, group t)]

def memberItems (k j : Joiner) : List (Tree α) → List (Joiner × Tree α)
  | [] => []
  | t :: rest =>
    (if Flat.needsParens k t then [(j, group t)] else items j t) ++ memberItems k k rest

end

/-- The operand that a member of a conjunction is read as. -/
def operand : Tree α → Tree α
  | node j members => group (node j members)
  | t => t

theorem Normal.operand {t : Tree α} (h : t.Normal) : t.operand.Operand := by
  cases t with
  | leaf a => exact operand_leaf a
  | node j members => exact operand_group h nofun
  | group t => exact ⟨h, rfl⟩

theorem dropImplied_operand {t : Tree α} (hj : t.joiner? ≠ some .and)
    (bare : ∀ disjuncts, t ≠ group (node .or disjuncts)) : t.operand.dropImplied = t := by
  cases t with
  | leaf a => rfl
  | group t =>
    rcases dropImplied_cases (group t) with ⟨disjuncts, hd, -⟩ | ⟨-, hdrop⟩
    · exact absurd hd (bare disjuncts)
    · exact hdrop
  | node k members =>
    cases k with
    | and => exact absurd rfl hj
    | or => rfl

theorem memberItems_and (j : Joiner) (t : Tree α) (rest : List (Tree α)) :
    memberItems .and j (t :: rest) = (j, t.operand) :: rest.map fun u => (.and, u.operand) := by
  have hhead : ∀ (j : Joiner) (t : Tree α),
      (if Flat.needsParens .and t then [(j, group t)] else items j t) = [(j, t.operand)] := by
    intro j t
    cases t <;> rfl
  induction rest generalizing j t with
  | nil => rw [memberItems, hhead, memberItems]; rfl
  | cons u rest ih => rw [memberItems, hhead, ih]; rfl

theorem memberItems_or (j : Joiner) (t : Tree α) (rest : List (Tree α)) :
    memberItems .or j (t :: rest) = items j t ++ memberItems .or .or rest := by
  rw [memberItems, needsParens_or]
  rfl

theorem allRuns_run (t : Tree α) (run : List (Tree α)) :
    allRuns t (run.map fun u => (.and, u)) = [t :: run] := by
  induction run generalizing t with
  | nil => rfl
  | cons u run ih =>
    have hu := List.cons.inj (ih u)
    rw [List.map_cons, allRuns_and, hu.1, hu.2]

theorem allRuns_run_or (t : Tree α) (run : List (Tree α)) (u : Tree α) (rest : List (Joiner × Tree α)) :
    allRuns t ((run.map fun u => (.and, u)) ++ (.or, u) :: rest) = (t :: run) :: allRuns u rest := by
  induction run generalizing t with
  | nil => rfl
  | cons v run ih =>
    have hv := List.cons.inj (ih v)
    rw [List.map_cons, List.cons_append, allRuns_and, hv.1, hv.2]

/-- The members of a run after its first. -/
theorem IsRun.later {x : Tree α} {run : List (Tree α)} (h : IsRun (x :: run)) :
    ∀ m ∈ run.map fun u => (Joiner.and, u), m.2.Operand := by
  intro m hm
  obtain ⟨u, hu, rfl⟩ := List.mem_map.mp hm
  exact h.operands u (List.mem_cons_of_mem x hu)

/-- Whatever is not a disjunction is read as one run. -/
theorem items_run {t : Tree α} (h : t.Normal) (hno : t.NoImplied) (hj : t.joiner? ≠ some .or) :
    ∃ x run, (∀ j, items j t = (j, x) :: run.map fun u => (.and, u)) ∧ IsRun (x :: run) ∧
      runTree (x :: run) = t := by
  cases h with
  | leaf a =>
    refine ⟨.leaf a, [], fun j => rfl, ⟨nofun, ?_⟩, rfl⟩
    exact List.forall_mem_singleton.mpr (operand_leaf a)
  | @group t normal wide =>
    refine ⟨.group t, [], fun j => rfl, ⟨nofun, ?_⟩, rfl⟩
    exact List.forall_mem_singleton.mpr (operand_group normal wide)
  | @node k members several normal apart =>
    cases k with
    | or => exact absurd rfl hj
    | and =>
      match members with
      | [] => simp at several
      | [_] => simp at several
      | t :: u :: rest =>
        cases hno with
        | node _ bare =>
          have hdrop : ∀ x ∈ t :: u :: rest, x.operand.dropImplied = x :=
            fun x hx => dropImplied_operand (apart x hx) (bare rfl x hx)
          refine ⟨t.operand, (u :: rest).map operand, fun j => ?_, ⟨nofun, ?_⟩, ?_⟩
          · rw [items, memberItems_and, List.map_map]
            rfl
          · intro x hx
            rw [← List.map_cons] at hx
            obtain ⟨y, hy, rfl⟩ := List.mem_map.mp hx
            exact (normal y hy).operand
          · show node .and (((t :: u :: rest).map operand).map dropImplied) = _
            rw [List.map_map]
            exact congrArg _ ((List.map_congr_left hdrop).trans (List.map_id' _))

/-- Members of a disjunction are read as its runs. -/
theorem memberItems_runs {members : List (Tree α)} (hne : members ≠ [])
    (hnormal : ∀ t ∈ members, t.Normal) (hno : ∀ t ∈ members, t.NoImplied)
    (hj : ∀ t ∈ members, t.joiner? ≠ some .or) (j : Joiner) :
    ∃ x rest, memberItems .or j members = (j, x) :: rest ∧ x.Operand ∧ (∀ m ∈ rest, m.2.Operand) ∧
      (allRuns x rest).map runTree = members := by
  induction members generalizing j with
  | nil => exact absurd rfl hne
  | cons t more ih =>
    obtain ⟨x, run, hitems, hrun, htree⟩ := items_run (hnormal t (List.mem_cons_self ..))
      (hno t (List.mem_cons_self ..)) (hj t (List.mem_cons_self ..))
    have hx := hrun.operands x (List.mem_cons_self ..)
    rw [memberItems_or, hitems, List.cons_append]
    cases more with
    | nil =>
      refine ⟨x, _, rfl, hx, ?_, ?_⟩
      · rw [memberItems, List.append_nil]
        exact hrun.later
      · rw [memberItems, List.append_nil, allRuns_run, List.map_singleton, htree]
    | cons u more =>
      obtain ⟨y, rest, hmore, hy, hrest, htrees⟩ := ih (List.cons_ne_nil u more)
        (fun v hv => hnormal v (List.mem_cons_of_mem t hv))
        (fun v hv => hno v (List.mem_cons_of_mem t hv))
        (fun v hv => hj v (List.mem_cons_of_mem t hv)) .or
      refine ⟨x, _, rfl, hx, ?_, ?_⟩
      · rw [hmore]
        exact List.forall_mem_append.mpr ⟨hrun.later, List.forall_mem_cons.mpr ⟨hy, hrest⟩⟩
      · rw [hmore, allRuns_run_or, List.map_cons, htree, htrees]

/-- The sequence that a tree is read as is a sequence of that tree. -/
theorem ofSequence?_items {t : Tree α} (h : t.Normal) (hno : t.NoImplied) (j : Joiner) :
    ofSequence? (items j t) = some t := by
  by_cases hj : t.joiner? = some .or
  · cases h with
    | leaf a => exact nomatch hj
    | group _ _ => exact nomatch hj
    | @node k members several normal apart =>
      obtain rfl := Option.some.inj hj
      have hne : members ≠ [] := ne_nil_of_several several
      cases hno with
      | node inner _ =>
        obtain ⟨x, rest, hitems, hx, hrest, htrees⟩ := memberItems_runs hne normal inner apart j
        rw [items, hitems, ofSequence?_eq hx hrest, htrees, collapse_of_several several]
  · obtain ⟨x, run, hitems, hrun, htree⟩ := items_run h hno hj
    rw [hitems, ofSequence?_eq (hrun.operands x (List.mem_cons_self ..)) hrun.later, allRuns_run,
      List.map_singleton, htree]
    rfl

end DocQuery.Tree
