import DocQuery.Proofs.Counting

/-! Which disjuncts a condition has, and in what order.

A condition is met in one way by taking one member of every disjunction that is reached and all members of
every conjunction (`Chooses`). A way is told apart from the others by the places of the members taken, the
outer disjunction before those inside it and the others from left to right, and it leaves some of the leaves
standing. `disjuncts_enumerate`: the disjuncts are what the ways leave standing, one for each way, in the
lexicographic order of the places. -/
namespace DocQuery

/-! ### Choices -/

/-- A way to meet a condition. -/
structure Choice where
  /-- The place of the member taken, for each disjunction in the order in which they are reached. -/
  picks : List Nat
  /-- For each leaf of the condition, whether it is left standing. -/
  kept : List Bool

namespace Choice

variable {α : Type} {c d : Choice}

/-- The leaves that are left standing. -/
def keep (c : Choice) (leaves : List α) : List α :=
  ((c.kept.zip leaves).filter Prod.fst).map Prod.snd

/-- Both choices, for conditions that stand one after the other. -/
def and (c d : Choice) : Choice :=
  ⟨c.picks ++ d.picks, c.kept ++ d.kept⟩

/-- The choice of the member at place `i` of a disjunction, with so many leaves before and after it. -/
def pick (i before after : Nat) (c : Choice) : Choice :=
  ⟨i :: c.picks, List.replicate before false ++ c.kept ++ List.replicate after false⟩

/-- At the first disjunction where the choices differ, the one takes an earlier member than the other. -/
def Before (c d : Choice) : Prop :=
  ∃ same i j more later, c.picks = same ++ i :: more ∧ d.picks = same ++ j :: later ∧ i < j

theorem keep_and {xs : List α} (h : c.kept.length = xs.length) (ys : List α) :
    (c.and d).keep (xs ++ ys) = c.keep xs ++ d.keep ys := by
  simp only [keep, and, List.zip_append h, List.filter_append, List.map_append]

/-- Only the leaves of the member that is taken are left standing. -/
theorem keep_pick {ys : List α} (h : c.kept.length = ys.length) (i : Nat) (xs zs : List α) :
    (c.pick i xs.length zs.length).keep (xs ++ ys ++ zs) = c.keep ys := by
  have hnone : ∀ us : List α, ((List.replicate us.length false).zip us).filter Prod.fst = [] := by
    intro us
    refine List.filter_eq_nil_iff.mpr fun p hp => ?_
    rw [List.eq_of_mem_replicate (List.of_mem_zip hp).1]
    exact Bool.false_ne_true
  have hsame : (List.replicate xs.length false ++ c.kept).length = (xs ++ ys).length := by
    rw [List.length_append, List.length_append, List.length_replicate, h]
  rw [keep, pick, List.zip_append hsame, List.zip_append (List.length_replicate ..), List.filter_append,
    List.filter_append, hnone, hnone, List.nil_append, List.append_nil, keep]

theorem Before.and_left (h : c.Before d) (c' d' : Choice) : (c.and c').Before (d.and d') := by
  obtain ⟨same, i, j, more, later, hc, hd, hlt⟩ := h
  refine ⟨same, i, j, more ++ c'.picks, later ++ d'.picks, ?_, ?_, hlt⟩
  · rw [and, hc, List.append_assoc, List.cons_append]
  · rw [and, hd, List.append_assoc, List.cons_append]

theorem Before.and_right (h : c.Before d) (first : Choice) : (first.and c).Before (first.and d) := by
  obtain ⟨same, i, j, more, later, hc, hd, hlt⟩ := h
  refine ⟨first.picks ++ same, i, j, more, later, ?_, ?_, hlt⟩
  · rw [and, hc, List.append_assoc]
  · rw [and, hd, List.append_assoc]

theorem Before.pick (h : c.Before d) (i before after : Nat) :
    (c.pick i before after).Before (d.pick i before after) := by
  obtain ⟨same, j, k, more, later, hc, hd, hlt⟩ := h
  exact ⟨i :: same, j, k, more, later, congrArg (i :: ·) hc, congrArg (i :: ·) hd, hlt⟩

theorem Before.lt (h : c.Before d) : c.picks < d.picks := by
  obtain ⟨same, i, j, more, later, hc, hd, hlt⟩ := h
  rw [hc, hd]
  exact List.append_left_lt (List.Lex.rel hlt)

end Choice

namespace Tree

variable {α : Type} {t : Tree α} {c : Choice}

/-- The ways to meet a condition: all members of a conjunction and one member of a disjunction. -/
inductive Chooses : Tree α → Choice → Prop where
  | leaf (a : α) : Chooses (leaf a) ⟨[], [true]⟩
  | group {t : Tree α} {c : Choice} (inner : Chooses t c) : Chooses (group t) c
  | none : Chooses (node .and []) ⟨[], []⟩
  | every {t : Tree α} {rest : List (Tree α)} {c d : Choice} (first : Chooses t c)
      (others : Chooses (node .and rest) d) : Chooses (node .and (t :: rest)) (c.and d)
  | one {before : List (Tree α)} {t : Tree α} {after : List (Tree α)} {c : Choice} (taken : Chooses t c) :
      Chooses (node .or (before ++ t :: after))
        (c.pick before.length (before.flatMap leaves).length (after.flatMap leaves).length)

theorem Chooses.length_kept (h : Chooses t c) : c.kept.length = t.leaves.length := by
  induction h with
  | leaf a => rfl
  | group _ ih => exact ih
  | none => rfl
  | every _ _ ihfirst ihothers =>
    rw [leaves_node] at ihothers
    rw [Choice.and, List.length_append, ihfirst, ihothers, leaves_node, List.flatMap_cons, List.length_append]
  | one _ ih =>
    rw [Choice.pick, List.length_append, List.length_append, ih, leaves_node, List.flatMap_append,
      List.flatMap_cons]
    simp only [List.length_append, List.length_replicate, Nat.add_assoc]

theorem chooses_leaf {a : α} : Chooses (leaf a) c ↔ c = ⟨[], [true]⟩ := by
  constructor
  · intro h
    cases h
    rfl
  · rintro rfl
    exact .leaf a

theorem chooses_group : Chooses (group t) c ↔ Chooses t c := by
  constructor
  · intro h
    cases h with
    | group inner => exact inner
  · exact .group

theorem chooses_every_cons {rest : List (Tree α)} :
    Chooses (node .and (t :: rest)) c ↔ ∃ d, Chooses t d ∧ ∃ e, Chooses (node .and rest) e ∧ d.and e = c := by
  constructor
  · intro h
    cases h with
    | every first others => exact ⟨_, first, _, others, rfl⟩
  · rintro ⟨d, first, e, others, rfl⟩
    exact .every first others

/-! ### Disjunctions from a place on -/

/-- Of a disjunction of `before` and `rest` a member among the rest is taken. -/
def ChoosesAfter (before rest : List (Tree α)) (c : Choice) : Prop :=
  ∃ passed t after d, rest = passed ++ t :: after ∧ Chooses t d ∧
    c = d.pick (before ++ passed).length ((before ++ passed).flatMap leaves).length (after.flatMap leaves).length

theorem chooses_or {members : List (Tree α)} : Chooses (node .or members) c ↔ ChoosesAfter [] members c := by
  constructor
  · intro h
    cases h with
    | @one before t after d taken => exact ⟨before, t, after, d, rfl, taken, rfl⟩
  · rintro ⟨before, t, after, d, rfl, taken, rfl⟩
    exact .one taken

theorem choosesAfter_cons {before rest : List (Tree α)} :
    ChoosesAfter before (t :: rest) c ↔
      (∃ d, Chooses t d ∧
        d.pick before.length (before.flatMap leaves).length (rest.flatMap leaves).length = c) ∨
      ChoosesAfter (before ++ [t]) rest c := by
  constructor
  · rintro ⟨passed, u, after, d, hrest, hd, rfl⟩
    cases passed with
    | nil =>
      obtain ⟨rfl, rfl⟩ := List.cons.inj hrest
      exact .inl ⟨d, hd, by rw [List.append_nil]⟩
    | cons first passed =>
      obtain ⟨rfl, rfl⟩ := List.cons.inj hrest
      exact .inr ⟨passed, u, after, d, rfl, hd, by rw [List.append_assoc, List.singleton_append]⟩
  · rintro (⟨d, hd, rfl⟩ | ⟨passed, u, after, d, rfl, hd, rfl⟩)
    · exact ⟨[], t, rest, d, rfl, hd, by rw [List.append_nil]⟩
    · exact ⟨t :: passed, u, after, d, rfl, hd, by rw [List.append_assoc, List.singleton_append]⟩

/-- Whoever takes the member in front comes before those who take a later one. -/
theorem ChoosesAfter.after {before rest : List (Tree α)} (h : ChoosesAfter (before ++ [t]) rest c) (d : Choice)
    (m n : Nat) : (d.pick before.length m n).Before c := by
  obtain ⟨passed, u, after, e, -, -, rfl⟩ := h
  refine ⟨[], before.length, _, d.picks, e.picks, rfl, rfl, ?_⟩
  simp only [List.length_append, List.length_singleton]
  omega

/-! ### Expanding -/

/-- The conjuncts are what the choices leave standing: all choices, one after the other in their order. -/
structure Enumerates (leaves : List α) (chosen : Choice → Prop) (cs : List (Conjunct α)) (choices : List Choice) :
    Prop where
  all : ∀ c, c ∈ choices ↔ chosen c
  ordered : choices.Pairwise Choice.Before
  kept : cs = choices.map fun c => c.keep leaves

theorem expandEvery_enumerates {members : List (Tree α)}
    (h : ∀ t ∈ members, ∃ choices, Enumerates t.leaves (Chooses t) t.expand choices) :
    ∃ choices, Enumerates (members.flatMap leaves) (Chooses (node .and members)) (expandEvery members) choices := by
  induction members with
  | nil =>
    refine ⟨[⟨[], []⟩], fun c => ?_, List.pairwise_singleton _ _, rfl⟩
    rw [List.mem_singleton]
    constructor
    · rintro rfl
      exact .none
    · intro hc
      cases hc
      rfl
  | cons t rest ih =>
    obtain ⟨first, hfirst⟩ := h t (List.mem_cons_self ..)
    obtain ⟨others, hothers⟩ := ih fun u hu => h u (List.mem_cons_of_mem t hu)
    refine ⟨first.flatMap fun c => others.map c.and, fun c => ?_, ?_, ?_⟩
    · simp only [List.mem_flatMap, List.mem_map, hfirst.all, hothers.all, chooses_every_cons]
    · refine List.pairwise_flatMap.mpr ⟨fun c _ => ?_, hfirst.ordered.imp fun hbefore => ?_⟩
      · exact List.pairwise_map.mpr (hothers.ordered.imp fun hbefore => hbefore.and_right c)
      · rintro _ hd _ he
        obtain ⟨d, -, rfl⟩ := List.mem_map.mp hd
        obtain ⟨e, -, rfl⟩ := List.mem_map.mp he
        exact hbefore.and_left d e
    · rw [expandEvery, hfirst.kept, hothers.kept, List.flatMap_map, List.map_flatMap, List.flatMap_cons]
      refine List.flatMap_congr fun c hc => ?_
      rw [List.map_map, List.map_map]
      exact List.map_congr_left fun d _ => (Choice.keep_and ((hfirst.all c).mp hc).length_kept _).symm

theorem expandSome_enumerates (before : List (Tree α)) {rest : List (Tree α)}
    (h : ∀ t ∈ rest, ∃ choices, Enumerates t.leaves (Chooses t) t.expand choices) :
    ∃ choices, Enumerates ((before ++ rest).flatMap leaves) (ChoosesAfter before rest) (expandSome rest) choices := by
  induction rest generalizing before with
  | nil =>
    refine ⟨[], fun c => ?_, .nil, rfl⟩
    simp [ChoosesAfter]
  | cons t rest ih =>
    obtain ⟨first, hfirst⟩ := h t (List.mem_cons_self ..)
    obtain ⟨others, hothers⟩ := ih (before ++ [t]) fun u hu => h u (List.mem_cons_of_mem t hu)
    refine ⟨first.map (Choice.pick before.length (before.flatMap leaves).length (rest.flatMap leaves).length) ++ others,
      fun c => ?_, ?_, ?_⟩
    · simp only [List.mem_append, List.mem_map, hfirst.all, hothers.all, choosesAfter_cons]
    · refine List.pairwise_append.mpr ⟨?_, hothers.ordered, ?_⟩
      · exact List.pairwise_map.mpr (hfirst.ordered.imp fun hbefore => hbefore.pick _ _ _)
      · rintro _ hc d hd
        obtain ⟨c, -, rfl⟩ := List.mem_map.mp hc
        exact ((hothers.all d).mp hd).after c _ _
    · rw [expandSome, hfirst.kept, hothers.kept, List.map_append, List.map_map, List.append_assoc,
        List.singleton_append]
      refine congrArg (· ++ _) (List.map_congr_left fun c hc => ?_)
      have hpick := Choice.keep_pick ((hfirst.all c).mp hc).length_kept before.length (before.flatMap leaves)
        (rest.flatMap leaves)
      rw [List.append_assoc] at hpick
      rw [Function.comp_apply, List.flatMap_append, List.flatMap_cons, hpick]

/-- Expanding goes through all choices in their order. -/
theorem expand_enumerates (t : Tree α) : ∃ choices, Enumerates t.leaves (Chooses t) t.expand choices := by
  induction t with
  | leaf a =>
    refine ⟨[⟨[], [true]⟩], fun c => ?_, List.pairwise_singleton _ _, rfl⟩
    rw [List.mem_singleton, chooses_leaf]
  | group t ih =>
    obtain ⟨choices, h⟩ := ih
    exact ⟨choices, fun c => (h.all c).trans chooses_group.symm, h.ordered, h.kept⟩
  | node j members ih =>
    rw [leaves_node]
    cases j with
    | and => exact expandEvery_enumerates ih
    | or =>
      obtain ⟨choices, h⟩ := expandSome_enumerates [] ih
      exact ⟨choices, fun c => (h.all c).trans chooses_or.symm, h.ordered, h.kept⟩

/-- **The disjuncts enumerate the ways to meet a condition.** There is one for each way to choose in the
normalized condition, they come in the lexicographic order of the choices, and each has the leaves that its
choice leaves standing, in the order in which the condition has them. -/
theorem disjuncts_enumerate {t : Tree α} {limit : Nat} {cs : List (Conjunct α)} (hleaf : t.leaves ≠ [])
    (hcs : t.disjuncts limit = .ok cs) :
    ∃ choices : List Choice,
      (∀ c, c ∈ choices ↔ Chooses t.normalize c) ∧
      choices.Pairwise (fun c d => c.picks < d.picks) ∧
      cs = choices.map fun c => c.keep t.leaves := by
  rw [disjuncts_of_leaves hleaf] at hcs
  split at hcs
  · exact nomatch hcs
  · obtain rfl := Except.ok.inj hcs
    obtain ⟨choices, h⟩ := expand_enumerates t.normalize
    rw [leaves_normalize] at h
    exact ⟨choices, h.all, h.ordered.imp Choice.Before.lt, h.kept⟩

/-- Two disjunctions side by side, and one more that is reached in the second member of the first. -/
def routes : Tree Nat :=
  .node .and [.node .or [.leaf 1, .node .and [.leaf 2, .node .or [.leaf 3, .leaf 4]]], .node .or [.leaf 5, .leaf 6]]

theorem disjuncts_enumerate_routes :
    routes.leaves ≠ [] ∧
      routes.disjuncts 6 = .ok [[1, 5], [1, 6], [2, 3, 5], [2, 3, 6], [2, 4, 5], [2, 4, 6]] ∧
      ∃ choices : List Choice,
        (∀ c, c ∈ choices ↔ Chooses routes.normalize c) ∧
        choices.Pairwise (fun c d => c.picks < d.picks) ∧
        [[1, 5], [1, 6], [2, 3, 5], [2, 3, 6], [2, 4, 5], [2, 4, 6]] = choices.map fun c => c.keep routes.leaves := by
  have hleaf : routes.leaves ≠ [] := List.cons_ne_nil _ _
  have hcs : routes.disjuncts 6 = .ok [[1, 5], [1, 6], [2, 3, 5], [2, 3, 6], [2, 4, 5], [2, 4, 6]] := rfl
  exact ⟨hleaf, hcs, disjuncts_enumerate hleaf hcs⟩

end Tree

end DocQuery
