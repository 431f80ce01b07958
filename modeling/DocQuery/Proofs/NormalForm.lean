import DocQuery.Condition.Tree
import Mathlib.Data.List.Basic

/-! Normal form.

A condition is in normal form when every conjunction and disjunction has at least two
members, none of them joined alike, and no parentheses stand around a single leaf. A
condition without leaves has none.

`normalize_normal`: a condition with a leaf normalizes to a normal form.
`normalize_of_normal`: a normal form stays as it is. `leaves_normalize`: the leaves and
their order are kept. -/
namespace DocQuery.Tree

variable {α : Type}

/-! ### Trees and their members -/

/-- Induction over a tree, with the hypothesis at hand for every member of a group. -/
@[elab_as_elim, induction_eliminator]
theorem memberInduction {motive : Tree α → Prop} (leaf : ∀ a, motive (leaf a))
    (node : ∀ j members, (∀ t ∈ members, motive t) → motive (node j members))
    (group : ∀ t, motive t → motive (group t)) : (t : Tree α) → motive t
  | .leaf a => leaf a
  | .node j members => node j members fun t _ => memberInduction leaf node group t
  | .group t => group t (memberInduction leaf node group t)

theorem leavesAll_eq_flatMap (members : List (Tree α)) : leavesAll members = members.flatMap leaves := by
  induction members with
  | nil => rfl
  | cons t rest ih => simp only [leavesAll, ih, List.flatMap_cons]

@[simp] theorem leaves_node (j : Joiner) (members : List (Tree α)) :
    (node j members).leaves = members.flatMap leaves := leavesAll_eq_flatMap members

theorem evalEvery_eq_all (truth : α → Bool) (members : List (Tree α)) :
    evalEvery truth members = members.all (eval truth) := by
  induction members with
  | nil => rfl
  | cons t rest ih => simp only [evalEvery, ih, List.all_cons]

@[simp] theorem eval_and (truth : α → Bool) (members : List (Tree α)) :
    (node .and members).eval truth = members.all (eval truth) := evalEvery_eq_all truth members

theorem evalSome_eq_any (truth : α → Bool) (members : List (Tree α)) :
    evalSome truth members = members.any (eval truth) := by
  induction members with
  | nil => rfl
  | cons t rest ih => simp only [evalSome, ih, List.any_cons]

@[simp] theorem eval_or (truth : α → Bool) (members : List (Tree α)) :
    (node .or members).eval truth = members.any (eval truth) := evalSome_eq_any truth members

theorem normalizeAll_eq_flatMap (j : Joiner) (members : List (Tree α)) :
    normalizeAll j members = members.flatMap fun t => absorb j t.normalize := by
  induction members with
  | nil => rfl
  | cons t rest ih => simp only [normalizeAll, ih, List.flatMap_cons]

theorem normalize_node (j : Joiner) (members : List (Tree α)) :
    (node j members).normalize = collapse j (members.flatMap fun t => absorb j t.normalize) := by
  rw [normalize, normalizeAll_eq_flatMap]

/-- The joiner of a group's members. -/
def joiner? : Tree α → Option Joiner
  | node j _ => some j
  | _ => none

/-! ### Normal forms -/

inductive Normal : Tree α → Prop where
  | leaf (a : α) : Normal (leaf a)
  | node {j : Joiner} {members : List (Tree α)} (several : 2 ≤ members.length)
      (normal : ∀ t ∈ members, Normal t) (apart : ∀ t ∈ members, t.joiner? ≠ some j) :
      Normal (node j members)
  | group {t : Tree α} (normal : Normal t) (wide : ∀ a, t ≠ .leaf a) : Normal (group t)

theorem ne_nil_of_several {β : Type} {xs : List β} (h : 2 ≤ xs.length) : xs ≠ [] := by
  rintro rfl
  simp at h

theorem Normal.not_isEmpty {t : Tree α} (h : t.Normal) : t.isEmpty = false := by
  induction h with
  | leaf a => rfl
  | node several _ _ _ => exact List.isEmpty_eq_false_iff.mpr (ne_nil_of_several several)
  | group _ _ ih => exact ih

theorem Normal.leaves_ne_nil {t : Tree α} (h : t.Normal) : t.leaves ≠ [] := by
  induction h with
  | leaf a => simp [leaves]
  | @node j members several _ _ ih =>
    cases members with
    | nil => simp at several
    | cons t rest => simp [ih t (List.mem_cons_self ..)]
  | group _ _ ih => exact ih

theorem two_le_flatMap {β γ : Type} {f : β → List γ} {xs : List β} (h : 2 ≤ xs.length)
    (hf : ∀ x ∈ xs, f x ≠ []) : 2 ≤ (xs.flatMap f).length := by
  match xs with
  | [] => simp at h
  | [_] => simp at h
  | x :: y :: rest =>
    have hx := List.length_pos_iff.mpr (hf x (by simp))
    have hy := List.length_pos_iff.mpr (hf y (by simp))
    simp only [List.flatMap_cons, List.length_append]
    omega

/-- Whatever is not a leaf has two leaves at least. -/
theorem Normal.two_le_leaves {t : Tree α} (h : t.Normal) (wide : ∀ a, t ≠ .leaf a) :
    2 ≤ t.leaves.length := by
  induction h with
  | leaf a => exact absurd rfl (wide a)
  | node several normal _ _ =>
    rw [leaves_node]
    exact two_le_flatMap several fun t ht => (normal t ht).leaves_ne_nil
  | group _ inner ih => exact ih inner

/-- A normal member of a group that is not joined alike stays whole. -/
theorem absorb_of_normal {j : Joiner} {t : Tree α} (h : t.Normal) (hj : t.joiner? ≠ some j) :
    absorb j t = [t] := by
  cases h with
  | leaf a => rfl
  | group _ _ => rfl
  | @node k members several _ _ =>
    have hk : ¬ k = j := fun e => hj (by rw [e]; rfl)
    have hm : members.isEmpty = false := List.isEmpty_eq_false_iff.mpr (ne_nil_of_several several)
    simp [absorb, hk, hm]

theorem absorbAll_of_normal {j : Joiner} {members : List (Tree α)}
    (normal : ∀ t ∈ members, t.Normal) (apart : ∀ t ∈ members, t.joiner? ≠ some j) :
    members.flatMap (absorb j) = members := by
  induction members with
  | nil => rfl
  | cons t rest ih =>
    have hrest := ih (fun u hu => normal u (List.mem_cons_of_mem t hu))
      (fun u hu => apart u (List.mem_cons_of_mem t hu))
    rw [List.flatMap_cons, absorb_of_normal (normal t (List.mem_cons_self ..))
      (apart t (List.mem_cons_self ..)), hrest]
    rfl

theorem collapse_of_several {j : Joiner} {members : List (Tree α)} (h : 2 ≤ members.length) :
    collapse j members = node j members := by
  match members with
  | [] => simp at h
  | [_] => simp at h
  | _ :: _ :: _ => rfl

theorem parenthesize_of_normal {t : Tree α} (h : t.Normal) (wide : ∀ a, t ≠ .leaf a) :
    parenthesize t = group t := by
  cases t with
  | leaf a => exact absurd rfl (wide a)
  | node j members => simp [parenthesize, h.not_isEmpty]
  | group t => simp [parenthesize, h.not_isEmpty]

/-- Where the members stay as they are, there is only a sole member to put in the group's place. -/
theorem normalize_node_of_fixed {j : Joiner} {members : List (Tree α)} (fixed : ∀ t ∈ members, t.normalize = t)
    (normal : ∀ t ∈ members, t.Normal) (apart : ∀ t ∈ members, t.joiner? ≠ some j) :
    (node j members).normalize = collapse j members := by
  rw [normalize_node, ← List.flatMap_map, List.map_congr_left fixed, List.map_id', absorbAll_of_normal normal apart]

/-- Normalizing leaves a normal form as it is. -/
theorem normalize_of_normal {t : Tree α} (h : t.Normal) : t.normalize = t := by
  induction h with
  | leaf a => rfl
  | node several normal apart ih => rw [normalize_node_of_fixed ih normal apart, collapse_of_several several]
  | group normal wide ih => rw [normalize, ih, parenthesize_of_normal normal wide]

/-! ### Normalizing -/

/-- What there is after normalizing: a normal form, or a group of nothing. -/
def Reduced (t : Tree α) : Prop := t.Normal ∨ ∃ j, t = node j []

theorem absorb_normal {j : Joiner} {t : Tree α} (h : t.Reduced) :
    ∀ u ∈ absorb j t, u.Normal ∧ u.joiner? ≠ some j := by
  rcases h with h | ⟨k, rfl⟩
  · by_cases hj : t.joiner? = some j
    · cases h with
      | leaf a => simp [joiner?] at hj
      | group _ _ => simp [joiner?] at hj
      | node several normal apart =>
        obtain rfl := Option.some.inj hj
        intro u hu
        simp only [absorb, if_true] at hu
        exact ⟨normal u hu, apart u hu⟩
    · rw [absorb_of_normal h hj]
      intro u hu
      rw [List.mem_singleton.mp hu]
      exact ⟨h, hj⟩
  · intro u hu
    simp only [absorb, List.isEmpty_nil, if_true, ite_self, List.not_mem_nil] at hu

theorem collapse_normal {j : Joiner} {members : List (Tree α)} (hne : members ≠ [])
    (h : ∀ t ∈ members, t.Normal ∧ t.joiner? ≠ some j) : (collapse j members).Normal := by
  match members with
  | [] => exact absurd rfl hne
  | [t] => exact (h t (List.mem_cons_self ..)).1
  | t :: u :: rest =>
    refine .node ?_ (fun t ht => (h t ht).1) (fun t ht => (h t ht).2)
    simp

theorem collapse_reduced {j : Joiner} {members : List (Tree α)}
    (h : ∀ t ∈ members, t.Normal ∧ t.joiner? ≠ some j) : (collapse j members).Reduced := by
  by_cases hne : members = []
  · subst hne
    exact .inr ⟨j, rfl⟩
  · exact .inl (collapse_normal hne h)

theorem parenthesize_reduced {t : Tree α} (h : t.Reduced) : (parenthesize t).Reduced := by
  rcases h with h | ⟨k, rfl⟩
  · cases t with
    | leaf a => exact .inl h
    | node j members =>
      have hw : ∀ a, node j members ≠ .leaf a := fun a => nofun
      rw [parenthesize_of_normal h hw]
      exact .inl (.group h hw)
    | group t =>
      have hw : ∀ a, t.group ≠ .leaf a := fun a => nofun
      rw [parenthesize_of_normal h hw]
      exact .inl (.group h hw)
  · exact .inr ⟨k, rfl⟩

theorem normalize_reduced (t : Tree α) : t.normalize.Reduced := by
  induction t with
  | leaf a => exact .inl (.leaf a)
  | node j members ih =>
    rw [normalize_node]
    apply collapse_reduced
    intro u hu
    obtain ⟨t, ht, hu⟩ := List.mem_flatMap.mp hu
    exact absorb_normal (ih t ht) u hu
  | group t ih => exact parenthesize_reduced ih

theorem normalize_of_reduced {t : Tree α} (h : t.Reduced) : t.normalize = t := by
  obtain h | ⟨j, rfl⟩ := h
  · exact normalize_of_normal h
  · rfl

/-! ### Leaves -/

theorem leaves_absorb (j : Joiner) (t : Tree α) : (absorb j t).flatMap leaves = t.leaves := by
  cases t with
  | leaf a => simp [absorb]
  | group t => simp [absorb]
  | node k members =>
    by_cases hk : k = j
    · simp [absorb, hk]
    · cases members with
      | nil => simp [absorb, hk]
      | cons t rest => simp [absorb, hk]

theorem leaves_collapse (j : Joiner) (members : List (Tree α)) :
    (collapse j members).leaves = members.flatMap leaves := by
  match members with
  | [] => rfl
  | [t] => simp [collapse]
  | t :: u :: rest => rw [collapse_of_several (by simp), leaves_node]

theorem leaves_parenthesize (t : Tree α) : (parenthesize t).leaves = t.leaves := by
  cases t with
  | leaf a => rfl
  | node j members =>
    simp only [parenthesize]
    split <;> rfl
  | group t =>
    simp only [parenthesize]
    split <;> rfl

/-- Normalizing keeps the leaves and their order. -/
theorem leaves_normalize (t : Tree α) : t.normalize.leaves = t.leaves := by
  induction t with
  | leaf a => rfl
  | node j members ih =>
    have hmember : ∀ t ∈ members, (absorb j t.normalize).flatMap leaves = t.leaves := by
      intro t ht
      rw [leaves_absorb, ih t ht]
    rw [normalize_node, leaves_collapse, List.flatMap_assoc, List.flatMap_congr hmember, leaves_node]
  | group t ih => rw [normalize, leaves_parenthesize, ih, leaves]

/-- A condition with a leaf normalizes to a normal form. -/
theorem normalize_normal {t : Tree α} (h : t.leaves ≠ []) : t.normalize.Normal := by
  rcases normalize_reduced t with hn | ⟨j, hj⟩
  · exact hn
  · have := leaves_normalize t
    rw [hj] at this
    exact absurd this.symm h

/-- Nothing is left of a condition just when it has no leaf. -/
theorem isEmpty_normalize (t : Tree α) : t.normalize.isEmpty = t.leaves.isEmpty := by
  by_cases h : t.leaves = []
  · rcases normalize_reduced t with hn | ⟨j, hj⟩
    · exact absurd ((leaves_normalize t).trans h) hn.leaves_ne_nil
    · rw [hj, h]
      rfl
  · rw [(normalize_normal h).not_isEmpty]
    exact (List.isEmpty_eq_false_iff.mpr h).symm

end DocQuery.Tree
