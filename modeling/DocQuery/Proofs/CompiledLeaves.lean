import DocQuery.Proofs.CompiledReading
import DocQuery.Proofs.Leafwise

/-! The leaves of a compiled condition.

A compiled condition is its normal form with the terms of every leaf beside the leaf, written out. What
a leaf gives names places that stand for values bound by then, so it may be looked at with all values that
are bound in the end (`Yields`). `compileTree_made`: whatever holds of what each predicate gives, wherever
its compiling starts and whatever is bound after it, holds of all leaves of a compiled condition. -/
namespace DocQuery

/-! ### Changing leaves -/

namespace Tree

variable {α β : Type}

mutual

def map (f : α → β) : Tree α → Tree β
  | leaf a => leaf (f a)
  | node j members => node j (mapAll f members)
  | group t => group (map f t)

def mapAll (f : α → β) : List (Tree α) → List (Tree β)
  | [] => []
  | t :: rest => map f t :: mapAll f rest

end

variable {f : α → β}

theorem mapAll_eq_map (members : List (Tree α)) : mapAll f members = members.map (map f) := by
  induction members with
  | nil => rfl
  | cons t rest ih => rw [mapAll, ih, List.map_cons]

theorem map_node (j : Joiner) (members : List (Tree α)) :
    (node j members).map f = node j (members.map (map f)) := by
  rw [map, mapAll_eq_map]

theorem leaves_map (t : Tree α) : (t.map f).leaves = t.leaves.map f := by
  induction t with
  | leaf a => rfl
  | group t ih => exact ih
  | node j members ih =>
    rw [map_node, leaves_node, leaves_node, List.flatMap_map, List.map_flatMap]
    exact List.flatMap_congr ih

theorem joiner?_map (t : Tree α) : (t.map f).joiner? = t.joiner? := by
  cases t <;> rfl

/-- A tree is in normal form if it is with other leaves. -/
theorem normal_of_map {t : Tree α} (h : (t.map f).Normal) : t.Normal := by
  induction t with
  | leaf a => exact .leaf a
  | group t ih =>
    cases h with
    | group normal wide => exact .group (ih normal) fun a ha => wide (f a) (ha ▸ rfl)
  | node j members ih =>
    rw [map_node] at h
    cases h with
    | node several normal apart =>
      refine .node (by rwa [List.length_map] at several) (fun t ht => ih t ht ?_) fun t ht => ?_
      · exact normal _ (List.mem_map_of_mem ht)
      · rw [← joiner?_map (f := f)]
        exact apart _ (List.mem_map_of_mem ht)

theorem isEmpty_map (t : Tree α) : (t.map f).isEmpty = t.isEmpty := by
  induction t with
  | leaf a => rfl
  | group t ih => exact ih
  | node j members _ => rw [map_node, isEmpty, isEmpty, List.isEmpty_map]

theorem absorb_map (j : Joiner) (t : Tree α) : absorb j (t.map f) = (absorb j t).map (map f) := by
  cases t with
  | leaf a => rfl
  | group t => rfl
  | node k members =>
    rw [map_node, absorb, absorb, List.isEmpty_map]
    split
    · rfl
    · split
      · rfl
      · rw [List.map_singleton, map_node]

theorem collapse_map (j : Joiner) (members : List (Tree α)) :
    collapse j (members.map (map f)) = (collapse j members).map f := by
  match members with
  | [] => rfl
  | [_] => rfl
  | t :: u :: rest => exact (map_node j (t :: u :: rest)).symm

theorem parenthesize_map (t : Tree α) : parenthesize (t.map f) = (parenthesize t).map f := by
  have hwide : ∀ t : Tree α, (if (t.map f).isEmpty then t.map f else group (t.map f)) =
      (if t.isEmpty then t else group t).map f := by
    intro t
    rw [isEmpty_map]
    split <;> rfl
  cases t with
  | leaf a => rfl
  | group t => exact hwide (group t)
  | node j members => exact hwide (node j members)

/-- Normalizing does not look at the leaves. -/
theorem normalize_map (t : Tree α) : (t.map f).normalize = t.normalize.map f := by
  induction t with
  | leaf a => rfl
  | group t ih => rw [map, normalize, normalize, ih, parenthesize_map]
  | node j members ih =>
    have hmembers : (members.map (map f)).flatMap (fun t => absorb j t.normalize) =
        (members.flatMap fun t => absorb j t.normalize).map (map f) := by
      rw [List.flatMap_map, List.map_flatMap]
      exact List.flatMap_congr fun t ht => by rw [ih t ht, absorb_map]
    rw [map_node, normalize_node, normalize_node, hmembers, collapse_map]

end Tree

namespace Sql

open DocQuery.Symbol

variable {α β : Type}

/-! ### What a computation gives with what it binds -/

/-- Wherever it starts, the computation keeps the values bound before, and what it gives has the property
with the values bound then and any that are bound later. -/
def Yields (x : Compile α) (Q : List Value → α → Prop) : Prop :=
  ∀ bound a after, x.run.run bound = (.ok a, after) →
    ∃ values, after.toList = bound.toList ++ values ∧ ∀ later, Q (after.toList ++ later) a

namespace Yields

variable {x : Compile α} {k : α → Compile β} {Q : List Value → α → Prop} {R : List Value → β → Prop}

theorem pure {a : α} (h : ∀ values, Q values a) : Yields (Pure.pure a) Q := by
  intro bound b after hrun
  obtain ⟨hb, rfl⟩ := Prod.mk.inj hrun
  obtain rfl := Except.ok.inj hb
  exact ⟨[], (List.append_nil _).symm, fun later => h _⟩

theorem bind (hx : Yields x Q) (hk : ∀ a, Yields (k a) fun values b => Q values a → R values b) :
    Yields (x >>= k) R := by
  intro bound b after hrun
  obtain ⟨a, middle, hfirst, hrest⟩ := run_bind_ok hrun
  obtain ⟨values, hmiddle, hQ⟩ := hx bound a middle hfirst
  obtain ⟨more, hafter, hR⟩ := hk a middle b after hrest
  refine ⟨values ++ more, by rw [hafter, hmiddle, List.append_assoc], fun later => hR later ?_⟩
  rw [hafter, List.append_assoc]
  exact hQ (more ++ later)

theorem map {f : α → β} (hx : Yields x Q) (hf : ∀ values a, Q values a → R values (f a)) : Yields (f <$> x) R := by
  rw [← bind_pure_comp]
  exact hx.bind fun a => pure fun values => hf values a

theorem mono {Q' : List Value → α → Prop} (hx : Yields x Q) (h : ∀ values a, Q values a → Q' values a) :
    Yields x Q' := by
  intro bound a after hrun
  obtain ⟨values, hafter, hQ⟩ := hx bound a after hrun
  exact ⟨values, hafter, fun later => h _ a (hQ later)⟩

theorem and {E : α → Prop} (hx : Yields x Q) (hE : Ensures x E) : Yields x fun values a => Q values a ∧ E a := by
  intro bound a after hrun
  obtain ⟨values, hafter, hQ⟩ := hx bound a after hrun
  exact ⟨values, hafter, fun later => ⟨hQ later, hE bound a after hrun⟩⟩

end Yields

/-! ### Trees -/

section Trees

variable {numbered : Bool} {params : ParamSet} {P : List Value → Predicate → Fragment → Prop}

/-- The leaves are compiled where they stand in the tree. -/
theorem mapM_yields (h : ∀ p, Yields (fragment numbered params p) fun values f => P values p f) (t : Tree Predicate) :
    Yields (t.mapM (compiledLeaf numbered params)) fun values u =>
      u.map Prod.fst = t ∧ ∀ leaf ∈ u.leaves, P values leaf.1 leaf.2 := by
  induction t with
  | leaf p =>
    refine ((h p).map (R := fun values leaf => leaf.1 = p ∧ P values leaf.1 leaf.2) fun _ f hf => ⟨rfl, hf⟩).map
      fun values leaf hleaf => ⟨congrArg Tree.leaf hleaf.1, ?_⟩
    exact List.forall_mem_singleton.mpr hleaf.2
  | group t ih => exact ih.map fun values u hu => ⟨congrArg Tree.group hu.1, hu.2⟩
  | node j members ih =>
    have hmembers : Yields (Tree.mapAllM (compiledLeaf numbered params) members) fun values us =>
        us.map (Tree.map Prod.fst) = members ∧ ∀ leaf ∈ us.flatMap Tree.leaves, P values leaf.1 leaf.2 := by
      induction members with
      | nil => exact Yields.pure fun _ => ⟨rfl, nofun⟩
      | cons t rest ihrest =>
        refine (ih t (List.mem_cons_self ..)).bind fun u =>
          (ihrest fun v hv => ih v (List.mem_cons_of_mem t hv)).bind fun us => Yields.pure fun values hus hu => ?_
        refine ⟨by rw [List.map_cons, hu.1, hus.1], fun leaf hleaf => ?_⟩
        rw [List.flatMap_cons] at hleaf
        exact (List.mem_append.mp hleaf).elim (hu.2 leaf) (hus.2 leaf)
    refine hmembers.map fun values us hus => ⟨?_, ?_⟩
    · rw [Tree.map_node, hus.1]
    · rw [Tree.leaves_node]
      exact hus.2

/-- What a predicate gives on its own names places that stand for the values of its slots. -/
theorem fragment_names {p : Predicate} {f : Fragment} {values : Array Value}
    (h : (fragment numbered params p).run.run #[] = (.ok f, values)) {t : Term} (ht : t ∈ f.terms) {n : Nat}
    (hn : n ∈ t.places) : 0 < n ∧ ∃ s ∈ slots numbered params p, values.toList[n - 1]? = some s.value := by
  obtain ⟨hvalues, hplaces⟩ := (fragment_writes p).first h
  have hmem : n ∈ Placed.places f := List.mem_flatMap.mpr ⟨t, ht, hn⟩
  rw [hplaces] at hmem
  obtain ⟨i, s, hs, rfl⟩ := mem_placesFrom hmem
  refine ⟨by omega, s, List.mem_of_getElem? hs, ?_⟩
  rw [Nat.zero_add, Nat.add_sub_cancel_left, hvalues, List.getElem?_map, hs]
  rfl

/-- A place further on by the values before stands for what it stands for without them. -/
theorem getElem?_raised {before values later : List Value} {n : Nat} {v : Value} (hn : 0 < n)
    (h : values[n - 1]? = some v) : (before ++ values ++ later)[n + before.length - 1]? = some v := by
  obtain ⟨hlt, -⟩ := List.getElem?_eq_some_iff.mp h
  rw [List.append_assoc, List.getElem?_append_right (by omega), List.getElem?_append_left (by omega), ← h]
  exact congrArg (values[·]?) (by omega)

/-- What a predicate gives wherever it is compiled is what it gives on its own, with places further on. -/
theorem fragment_yields {p : Predicate} {Q : List Value → Fragment → Prop}
    (h : ∀ f values, (fragment numbered params p).run.run #[] = (.ok f, values) → ∀ before later,
      Q (before ++ values.toList ++ later) (Placed.raise before.length f)) : Yields (fragment numbered params p) Q := by
  intro bound f after hrun
  obtain ⟨g, values, halone, rfl, rfl⟩ := (fragment_writes p).alone hrun
  refine ⟨values.toList, Array.toList_append, fun later => ?_⟩
  rw [Array.toList_append]
  exact h g values halone bound.toList later

end Trees

/-- The compiled condition is the tree `u` written out, which is the normal form of `t` with the terms of
each leaf beside it. -/
structure Compiled.MadeOf (d : Dialect) (params : ParamSet) (t : Tree Predicate) (c : Compiled)
    (u : Tree (Predicate × Fragment)) : Prop where
  leaves : u.map Prod.fst = t.normalize
  text : c.text = render d (u.layout leafTokens none)
  run : (condition d.numbered params t).run.run #[] = (.ok (u.layout leafTokens none), c.params.toArray)

theorem compileTree_made {d : Dialect} {params : ParamSet} {P : List Value → Predicate → Fragment → Prop}
    {t : Tree Predicate} {c : Compiled}
    (hP : ∀ p, Yields (fragment d.numbered params p) fun values f => P values p f)
    (h : compileTree d params t = .ok c) :
    ∃ u, c.MadeOf d params t u ∧ ∀ leaf ∈ u.leaves, P c.params leaf.1 leaf.2 := by
  obtain ⟨hleaf, tokens, htext, hrun⟩ := compileTree_ok h
  have hlayout := hrun
  rw [condition_of_leaves hleaf, treeTokens_eq_layout] at hlayout
  obtain ⟨u, hleaves, rfl⟩ := run_map_ok hlayout
  obtain ⟨values, -, hmade⟩ := mapM_yields hP t.normalize _ _ _ hleaves
  obtain ⟨hmap, hall⟩ := hmade []
  refine ⟨u, ⟨hmap, htext, hrun⟩, fun leaf hmem => ?_⟩
  have hone := hall leaf hmem
  rwa [List.append_nil] at hone

end Sql

end DocQuery
