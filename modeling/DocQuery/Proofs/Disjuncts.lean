import DocQuery.Condition.Disjuncts
import DocQuery.Proofs.NormalForm

/-! What the disjuncts of a condition say.

Normalizing keeps the truth of a condition unless it drops a group without members
(`eval_normalize`): such a conjunction holds, and nothing is left of it. Expanding keeps the
truth of any condition (`expand_holds`). `disjuncts_say`: the disjuncts of a condition hold just
when it does, and so does the tree they are put back into. -/
namespace DocQuery

namespace Tree

variable {α : Type} {truth : α → Bool}

/-! ### Conditions without empty groups -/

/-- Every conjunction and disjunction has a member. -/
inductive Populated : Tree α → Prop where
  | leaf (a : α) : Populated (leaf a)
  | node {j : Joiner} {members : List (Tree α)} (some : members ≠ [])
      (populated : ∀ t ∈ members, Populated t) : Populated (node j members)
  | group {t : Tree α} (populated : Populated t) : Populated (group t)

theorem Normal.populated {t : Tree α} (h : t.Normal) : t.Populated := by
  induction h with
  | leaf a => exact .leaf a
  | node several _ _ ih => exact .node (ne_nil_of_several several) ih
  | group _ _ ih => exact .group ih

theorem Populated.leaves_ne_nil {t : Tree α} (h : t.Populated) : t.leaves ≠ [] := by
  induction h with
  | leaf a => simp [leaves]
  | @node j members some _ ih =>
    obtain ⟨t, rest, rfl⟩ := List.exists_cons_of_ne_nil some
    simp [ih t (List.mem_cons_self ..)]
  | group _ ih => exact ih

theorem Populated.normalize {t : Tree α} (h : t.Populated) : t.normalize.Normal :=
  normalize_normal h.leaves_ne_nil

/-! ### Normalizing -/

theorem eval_node_singleton (j : Joiner) (t : Tree α) : (node j [t]).eval truth = t.eval truth := by
  cases j <;> simp

/-- Members may be spread out into several that say the same together. -/
theorem eval_node_flatMap {f : Tree α → List (Tree α)} {j : Joiner} {members : List (Tree α)}
    (h : ∀ t ∈ members, (node j (f t)).eval truth = t.eval truth) :
    (node j (members.flatMap f)).eval truth = (node j members).eval truth := by
  induction members with
  | nil => rfl
  | cons t rest ih =>
    have ht := h t (List.mem_cons_self ..)
    have hrest := ih fun u hu => h u (List.mem_cons_of_mem t hu)
    cases j with
    | and =>
      simp only [eval_and] at ht hrest
      simp only [List.flatMap_cons, eval_and, List.all_append, List.all_cons, ht, hrest]
    | or =>
      simp only [eval_or] at ht hrest
      simp only [List.flatMap_cons, eval_or, List.any_append, List.any_cons, ht, hrest]

theorem eval_absorb {t : Tree α} (h : t.Normal) (j : Joiner) :
    (node j (absorb j t)).eval truth = t.eval truth := by
  by_cases hj : t.joiner? = some j
  · cases h with
    | leaf a => exact nomatch hj
    | group _ _ => exact nomatch hj
    | node _ _ _ =>
      obtain rfl := Option.some.inj hj
      simp [absorb]
  · rw [absorb_of_normal h hj, eval_node_singleton]

theorem eval_collapse (j : Joiner) (members : List (Tree α)) :
    (collapse j members).eval truth = (node j members).eval truth := by
  match members with
  | [] => rfl
  | [t] => exact (eval_node_singleton j t).symm
  | t :: u :: rest => rfl

theorem eval_parenthesize (t : Tree α) : (parenthesize t).eval truth = t.eval truth := by
  cases t with
  | leaf a => rfl
  | node j members =>
    simp only [parenthesize]
    split <;> rfl
  | group t =>
    simp only [parenthesize]
    split <;> rfl

/-- Normalizing a condition without empty groups keeps its truth. -/
theorem eval_normalize {t : Tree α} (h : t.Populated) : t.normalize.eval truth = t.eval truth := by
  induction h with
  | leaf a => rfl
  | @node j members _ populated ih =>
    have hmember : ∀ t ∈ members, (node j (absorb j t.normalize)).eval truth = t.eval truth :=
      fun t ht => (eval_absorb (populated t ht).normalize j).trans (ih t ht)
    rw [normalize_node, eval_collapse, eval_node_flatMap hmember]
  | group _ ih => rw [normalize, eval_parenthesize, ih, eval]

/-! ### Expanding -/

theorem expandSome_eq_flatMap (members : List (Tree α)) :
    expandSome members = members.flatMap expand := by
  induction members with
  | nil => rfl
  | cons t rest ih => rw [expandSome, ih, List.flatMap_cons]

theorem holds_append (c d : Conjunct α) :
    Conjunct.holds truth (c ++ d) = (Conjunct.holds truth c && Conjunct.holds truth d) :=
  List.all_append

theorem any_congr_members {β : Type} {p q : β → Bool} {xs : List β} (h : ∀ x ∈ xs, p x = q x) :
    xs.any p = xs.any q := by
  have hmap := congrArg (fun bs => bs.any id) (List.map_congr_left h)
  simpa only [List.any_map, Function.id_comp] using hmap

/-- Some combination holds when one holds on either side. -/
theorem any_combinations (cs ds : List (Conjunct α)) :
    (cs.flatMap fun c => ds.map fun d => c ++ d).any (Conjunct.holds truth) =
      (cs.any (Conjunct.holds truth) && ds.any (Conjunct.holds truth)) := by
  induction cs with
  | nil => rfl
  | cons c rest ih =>
    have hfirst : (ds.map fun d => c ++ d).any (Conjunct.holds truth) =
        (Conjunct.holds truth c && ds.any (Conjunct.holds truth)) := by
      simp only [List.any_map, Function.comp_def, holds_append, List.and_any_distrib_left]
    rw [List.flatMap_cons, List.any_append, hfirst, ih, List.any_cons, Bool.and_or_distrib_right]

/-- Some disjunct holds just when the condition does. -/
theorem expand_holds (t : Tree α) : t.expand.any (Conjunct.holds truth) = t.eval truth := by
  induction t with
  | leaf a => simp [expand, Conjunct.holds, eval]
  | group t ih => exact ih
  | node j members ih =>
    cases j with
    | or => rw [expand, expandSome_eq_flatMap, List.any_flatMap, eval_or, any_congr_members ih]
    | and =>
      rw [expand, eval_and]
      induction members with
      | nil => rfl
      | cons t rest ihrest =>
        rw [expandEvery, any_combinations, ih t (List.mem_cons_self ..),
          ihrest fun u hu => ih u (List.mem_cons_of_mem t hu), List.all_cons]

/-- A condition without empty groups has a disjunct, and none of its disjuncts is empty. -/
theorem Populated.expand {t : Tree α} (h : t.Populated) : t.expand ≠ [] ∧ ∀ c ∈ t.expand, c ≠ [] := by
  induction h with
  | leaf a => simp [Tree.expand]
  | group _ ih => exact ih
  | @node j members some _ ih =>
    obtain ⟨t, rest, rfl⟩ := List.exists_cons_of_ne_nil some
    have ht := ih t (List.mem_cons_self ..)
    cases j with
    | or =>
      rw [Tree.expand, expandSome_eq_flatMap]
      refine ⟨by simp [ht.1], fun c hc => ?_⟩
      obtain ⟨u, hu, hc⟩ := List.mem_flatMap.mp hc
      exact (ih u hu).2 c hc
    | and =>
      have hothers : ∀ members : List (Tree α), (∀ u ∈ members, u.expand ≠ []) →
          expandEvery members ≠ [] := by
        intro members hmembers
        induction members with
        | nil => exact List.cons_ne_nil _ _
        | cons u more ihmore =>
          simp only [expandEvery, ne_eq, List.flatMap_eq_nil_iff, List.map_eq_nil_iff]
          intro hnil
          obtain ⟨c, hc⟩ := List.exists_mem_of_ne_nil _ (hmembers u (List.mem_cons_self ..))
          exact ihmore (fun v hv => hmembers v (List.mem_cons_of_mem u hv)) (hnil c hc)
      refine ⟨hothers _ fun u hu => (ih u hu).1, fun c hc => ?_⟩
      obtain ⟨d, hd, hc⟩ := List.mem_flatMap.mp hc
      obtain ⟨e, -, rfl⟩ := List.mem_map.mp hc
      exact fun hnil => ht.2 d hd (List.append_eq_nil_iff.mp hnil).1

end Tree

/-! ### Putting disjuncts back together -/

namespace Conjunct

variable {α : Type} {truth : α → Bool}

theorem populated_leaves {c : Conjunct α} (h : c ≠ []) :
    (Tree.node .and (c.map Tree.leaf)).Populated := by
  refine .node (by simpa using h) fun t ht => ?_
  obtain ⟨a, -, rfl⟩ := List.mem_map.mp ht
  exact .leaf a

theorem eval_toTree {c : Conjunct α} (h : c ≠ []) : c.toTree.eval truth = c.holds truth := by
  rw [toTree, Tree.all, Tree.eval_normalize (populated_leaves h), Tree.eval_and, List.all_map]
  rfl

theorem populated_trees {cs : List (Conjunct α)} (hne : cs ≠ []) (h : ∀ c ∈ cs, c ≠ []) :
    (Tree.node .or (cs.map toTree)).Populated := by
  refine .node (by simpa using hne) fun t ht => ?_
  obtain ⟨c, hc, rfl⟩ := List.mem_map.mp ht
  exact (populated_leaves (h c hc)).normalize.populated

theorem rejoin_some {cs : List (Conjunct α)} (hne : cs ≠ []) (h : ∀ c ∈ cs, c ≠ []) :
    rejoin cs = some (Tree.any (cs.map toTree)) := by
  rw [rejoin, Tree.any, if_neg (by simp [(populated_trees hne h).normalize.not_isEmpty])]

/-- Disjuncts that are not empty are put back into a tree that holds when one of them does. -/
theorem rejoin_holds {cs : List (Conjunct α)} (hne : cs ≠ []) (h : ∀ c ∈ cs, c ≠ []) :
    ∃ t, rejoin cs = some t ∧ ∀ truth, t.eval truth = cs.any (holds truth) := by
  refine ⟨_, rejoin_some hne h, fun truth => ?_⟩
  rw [Tree.any, Tree.eval_normalize (populated_trees hne h), Tree.eval_or, List.any_map]
  exact Tree.any_congr_members fun c hc => eval_toTree (h c hc)

end Conjunct

namespace Tree

variable {α : Type}

/-- **The disjuncts of a condition say what it says.** None of them is empty, one of them holds
just when the condition does, and put back together they are a condition of the same truth. -/
theorem disjuncts_say {t : Tree α} {limit : Nat} {cs : List (Conjunct α)} (hleaf : t.leaves ≠ [])
    (h : t.Populated) (hcs : t.disjuncts limit = .ok cs) :
    (∀ c ∈ cs, c ≠ []) ∧
      (∀ truth, (∃ c ∈ cs, c.holds truth = true) ↔ t.eval truth = true) ∧
      ∃ u, Conjunct.rejoin cs = some u ∧ ∀ truth, u.eval truth = t.eval truth := by
  have hnormal := normalize_normal hleaf
  obtain rfl : t.normalize.expand = cs := by
    simp only [disjuncts, hnormal.not_isEmpty, Bool.false_eq_true, if_false] at hcs
    split at hcs
    · exact nomatch hcs
    · exact Except.ok.inj hcs
  have hsay : ∀ truth, t.normalize.expand.any (Conjunct.holds truth) = t.eval truth :=
    fun truth => (expand_holds t.normalize).trans (eval_normalize h)
  obtain ⟨hne, hmembers⟩ := hnormal.populated.expand
  obtain ⟨u, hu, hholds⟩ := Conjunct.rejoin_holds hne hmembers
  refine ⟨hmembers, fun truth => ?_, u, hu, fun truth => (hholds truth).trans (hsay truth)⟩
  rw [← hsay truth, List.any_eq_true]

/-- A conjunction with a disjunction in a group, in which there is another. -/
def choices : Tree Nat :=
  .node .and [.group (.node .or [.leaf 1, .node .and [.leaf 2, .group (.node .or [.leaf 3, .leaf 4])]]),
    .node .and [.leaf 5]]

theorem disjuncts_say_choices :
    choices.disjuncts 3 = .ok [[1, 5], [2, 3, 5], [2, 4, 5]] ∧
      (∀ truth, (∃ c ∈ [[1, 5], [2, 3, 5], [2, 4, 5]], Conjunct.holds truth c = true) ↔
        choices.eval truth = true) ∧
      ∃ u, Conjunct.rejoin [[1, 5], [2, 3, 5], [2, 4, 5]] = some u ∧
        ∀ truth, u.eval truth = choices.eval truth := by
  have hpair : ∀ {j : Joiner} {t u : Tree Nat}, t.Populated → u.Populated → (node j [t, u]).Populated :=
    fun ht hu => .node (List.cons_ne_nil _ _)
      (List.forall_mem_cons.mpr ⟨ht, List.forall_mem_singleton.mpr hu⟩)
  have hinner : (node .and [.leaf 2, .group (.node .or [.leaf 3, .leaf 4])] : Tree Nat).Populated :=
    hpair (.leaf 2) (.group (hpair (.leaf 3) (.leaf 4)))
  have hpopulated : choices.Populated :=
    hpair (.group (hpair (.leaf 1) hinner))
      (.node (List.cons_ne_nil _ _) (List.forall_mem_singleton.mpr (.leaf 5)))
  have hcs : choices.disjuncts 3 = .ok [[1, 5], [2, 3, 5], [2, 4, 5]] := rfl
  exact ⟨hcs, (disjuncts_say hpopulated.leaves_ne_nil hpopulated hcs).2⟩

end Tree

end DocQuery
