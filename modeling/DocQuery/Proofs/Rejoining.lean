import DocQuery.Proofs.Counting

/-! Taking a condition apart and putting it back together.

Of disjuncts that are not empty, one with several items is put back into a conjunction and one with a single
item into that item. No disjunction is among them, so that normalizing neither merges nor drops any
(`any_toTree`), and what they are put back into expands to them again, in their order
(`expand_any_toTree`). `rejoin_stable`: for the disjuncts of a condition that is done under the same limit,
since there are as many of them as before. -/
namespace DocQuery

namespace Tree

variable {α : Type}

theorem expand_singleton (j : Joiner) (t : Tree α) : (node j [t]).expand = t.expand := by
  cases j with
  | and => simp [expand, expandEvery]
  | or => simp [expand, expandSome]

/-- Putting a sole member in the group's place changes no disjuncts. -/
theorem expand_collapse (j : Joiner) (members : List (Tree α)) :
    (collapse j members).expand = (node j members).expand := by
  cases members with
  | nil => rfl
  | cons t rest =>
    cases rest with
    | nil => exact (expand_singleton j t).symm
    | cons u more => rfl

theorem expandEvery_leaves (items : List α) : expandEvery (items.map leaf) = [items] := by
  induction items with
  | nil => rfl
  | cons a rest ih => rw [List.map_cons, expandEvery, ih, expand]; rfl

theorem joiner?_collapse_leaves (j k : Joiner) (hjk : j ≠ k) (items : List α) :
    (collapse j (items.map leaf)).joiner? ≠ some k := by
  intro h
  cases items with
  | nil => exact hjk (Option.some.inj h)
  | cons a rest =>
    cases rest with
    | nil => cases h
    | cons b more => exact hjk (Option.some.inj h)

end Tree

namespace Conjunct

variable {α : Type}

theorem toTree_eq_collapse (c : Conjunct α) : c.toTree = Tree.collapse .and (c.map Tree.leaf) := by
  have hleaf : ∀ t ∈ c.map Tree.leaf, ∃ a, t = Tree.leaf a := by
    intro t ht
    obtain ⟨a, -, rfl⟩ := List.mem_map.mp ht
    exact ⟨a, rfl⟩
  refine Tree.normalize_node_of_fixed (fun t ht => ?_) (fun t ht => ?_) fun t ht => ?_
  all_goals obtain ⟨a, rfl⟩ := hleaf t ht
  · rfl
  · exact .leaf a
  · exact fun h => nomatch h

/-- The tree of a conjunction has the conjunction for its only disjunct. -/
theorem expand_toTree (c : Conjunct α) : c.toTree.expand = [c] := by
  rw [toTree_eq_collapse, Tree.expand_collapse]
  exact Tree.expandEvery_leaves c

theorem any_toTree {cs : List (Conjunct α)} (h : ∀ c ∈ cs, c ≠ []) :
    Tree.any (cs.map toTree) = Tree.collapse .or (cs.map toTree) := by
  have hnormal : ∀ t ∈ cs.map toTree, t.Normal := by
    intro t ht
    obtain ⟨c, hc, rfl⟩ := List.mem_map.mp ht
    exact (populated_leaves (h c hc)).normalize
  refine Tree.normalize_node_of_fixed (fun t ht => Tree.normalize_of_normal (hnormal t ht)) hnormal fun t ht => ?_
  obtain ⟨c, -, rfl⟩ := List.mem_map.mp ht
  rw [toTree_eq_collapse]
  exact Tree.joiner?_collapse_leaves .and .or (by decide) c

/-- Put back together, disjuncts expand to themselves. -/
theorem expand_any_toTree {cs : List (Conjunct α)} (h : ∀ c ∈ cs, c ≠ []) : (Tree.any (cs.map toTree)).expand = cs := by
  rw [any_toTree h, Tree.expand_collapse, Tree.expand, Tree.expandSome_eq_flatMap, List.flatMap_map,
    List.flatMap_congr fun c _ => expand_toTree c, List.flatMap_singleton']

end Conjunct

namespace Tree

variable {α : Type}

/-- A condition without leaves has no disjuncts, under whatever limit. -/
theorem disjuncts_of_no_leaves {t : Tree α} (h : t.leaves = []) (limit : Nat) : t.disjuncts limit = .ok [] := by
  have hempty : t.normalize.isEmpty = true := by rw [isEmpty_normalize, h, List.isEmpty_nil]
  simp only [disjuncts, hempty, if_true]

/-- **Disjuncts that are put back together are found again.** There is nothing to put back just when the
condition had no leaf; otherwise a normalized condition is put back, which has the same disjuncts in the
same order under the same limit. -/
theorem rejoin_stable {t : Tree α} {limit : Nat} {cs : List (Conjunct α)} (hcs : t.disjuncts limit = .ok cs) :
    (Conjunct.rejoin cs = none ↔ t.leaves = []) ∧
      (t.leaves ≠ [] → ∃ u, Conjunct.rejoin cs = some u ∧ u.normalize = u ∧ u.disjuncts limit = .ok cs) := by
  by_cases hleaf : t.leaves = []
  · rw [disjuncts_of_no_leaves hleaf] at hcs
    obtain rfl := Except.ok.inj hcs
    exact ⟨⟨fun _ => hleaf, fun _ => rfl⟩, fun hsome => absurd hleaf hsome⟩
  · rw [disjuncts_of_leaves hleaf] at hcs
    split at hcs
    · exact nomatch hcs
    · next hfew =>
      obtain rfl := Except.ok.inj hcs
      obtain ⟨hne, hitems⟩ := (normalize_normal hleaf).populated.expand
      have hrejoin := Conjunct.rejoin_some hne hitems
      have hnormal : (Tree.any (t.normalize.expand.map Conjunct.toTree)).Normal :=
        (Conjunct.populated_trees hne hitems).normalize
      have hexpand := Conjunct.expand_any_toTree hitems
      -- As many disjuncts are as many ways, so the limit that was kept to is kept to again.
      have hways : (Tree.any (t.normalize.expand.map Conjunct.toTree)).ways = t.normalize.ways := by
        rw [← length_expand, hexpand, length_expand]
      refine ⟨⟨(fun hnone => nomatch hrejoin.symm.trans hnone), fun hnil => absurd hnil hleaf⟩,
        fun _ => ⟨_, hrejoin, normalize_of_normal hnormal, ?_⟩⟩
      rw [disjuncts_of_leaves hnormal.leaves_ne_nil, normalize_of_normal hnormal, hways, if_neg hfew, hexpand]

/-- A group with an empty disjunction and a disjunction of one beside a disjunction of two. -/
def scattered : Tree Nat :=
  .node .and [.group (.node .or [.node .or [], .node .or [.leaf 1]]), .node .or [.leaf 2, .node .and [.leaf 3, .leaf 4]]]

theorem rejoin_stable_scattered :
    scattered.disjuncts 2 = .ok [[1, 2], [1, 3, 4]] ∧ scattered.leaves ≠ [] ∧
      ∃ u, Conjunct.rejoin [[1, 2], [1, 3, 4]] = some u ∧ u.normalize = u ∧
        u.disjuncts 2 = .ok [[1, 2], [1, 3, 4]] := by
  have hcs : scattered.disjuncts 2 = .ok [[1, 2], [1, 3, 4]] := rfl
  have hleaf : scattered.leaves ≠ [] := List.cons_ne_nil _ _
  exact ⟨hcs, hleaf, (rejoin_stable hcs).2 hleaf⟩

end Tree

end DocQuery
