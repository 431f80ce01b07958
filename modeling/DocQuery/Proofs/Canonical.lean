import DocQuery.Proofs.Disjuncts

/-! What a normalized condition looks like.

`Within` ranges over everything inside a tree, and `Canonical` says of all of it what normalizing is
for: no group of one, no group directly inside another of its kind, no parentheses around one leaf or
around nothing, and nothing empty unless that is all there is. The conditions leave no room: the
canonical trees are the ones that normalizing leaves as they are (`canonical_iff`).

`normalize_canonical`: normalizing gives a canonical tree with the same leaves, and with the same truth
unless the tree had an empty group in it. -/
namespace DocQuery.Tree

variable {α : Type} {t u v : Tree α}

/-! ### Inside a tree -/

/-- The first tree is the second one or stands somewhere in it. -/
inductive Within (u : Tree α) : Tree α → Prop where
  | self : Within u u
  | member {j : Joiner} {members : List (Tree α)} {t : Tree α} (mem : t ∈ members) (within : Within u t) :
    Within u (node j members)
  | inner {t : Tree α} (within : Within u t) : Within u (group t)

theorem Within.trans (hu : u.Within t) (ht : t.Within v) : u.Within v := by
  induction ht with
  | self => exact hu
  | member mem _ ih => exact .member mem ih
  | inner _ ih => exact .inner ih

theorem Within.of_nothing {j : Joiner} (h : u.Within (node j [])) : u = node j [] := by
  cases h with
  | self => rfl
  | member mem _ => exact absurd mem List.not_mem_nil

/-- What stands in a normal form is one. -/
theorem Normal.of_within (h : t.Normal) (hu : u.Within t) : u.Normal := by
  induction hu with
  | self => exact h
  | member mem _ ih =>
    cases h with
    | node _ normal _ => exact ih (normal _ mem)
  | inner _ ih =>
    cases h with
    | group normal _ => exact ih normal

/-- The trees without empty groups, by what stands in them. -/
theorem populated_iff : t.Populated ↔ ∀ j, ¬ (node j []).Within t := by
  constructor
  · intro h j hempty
    induction h with
    | leaf a => cases hempty
    | node some _ ih =>
      cases hempty with
      | self => exact some rfl
      | member mem within => exact ih _ mem within
    | group _ ih =>
      cases hempty with
      | inner within => exact ih within
  · intro h
    induction t with
    | leaf a => exact .leaf a
    | node j members ih =>
      refine .node (fun hnil => h j (hnil ▸ .self)) fun t ht => ih t ht fun k hempty => ?_
      exact h k (.member ht hempty)
    | group t ih => exact .group (ih fun k hempty => h k (.inner hempty))

/-! ### Canonical trees -/

structure Canonical (n : Tree α) : Prop where
  /-- No group has one member. -/
  several : ∀ j t, ¬ (node j [t]).Within n
  /-- No conjunction is a member of a conjunction, and no disjunction of a disjunction. -/
  apart : ∀ j members inner, (node j members).Within n → node j inner ∉ members
  /-- No parentheses stand around a leaf. -/
  bare : ∀ a, ¬ (group (leaf a)).Within n
  /-- No parentheses stand around nothing. -/
  filled : ∀ t, (group t).Within n → t.isEmpty = false
  /-- An empty group is the whole tree. -/
  whole : ∀ j, (node j []).Within n → n = node j []

theorem Normal.canonical (h : t.Normal) : t.Canonical where
  several j u hu := by
    cases h.of_within hu with
    | node several _ _ => simp at several
  apart j members inner hu hinner := by
    cases h.of_within hu with
    | node _ _ apart => exact apart _ hinner rfl
  bare a hu := by
    cases h.of_within hu with
    | group _ wide => exact wide a rfl
  filled u hu := by
    cases h.of_within hu with
    | group normal _ => exact normal.not_isEmpty
  whole j hu := by
    cases h.of_within hu with
    | node several _ _ => exact absurd rfl (ne_nil_of_several several)

/-- Nothing stands in an empty group but itself. -/
theorem canonical_nothing (j : Joiner) : (node j [] : Tree α).Canonical where
  several k t hu := nomatch hu.of_nothing
  apart k members inner hu hinner := by
    obtain ⟨rfl, rfl⟩ := node.inj hu.of_nothing
    exact absurd hinner List.not_mem_nil
  bare a hu := nomatch hu.of_nothing
  filled t hu := nomatch hu.of_nothing
  whole k hu := hu.of_nothing.symm

theorem Reduced.canonical (h : t.Reduced) : t.Canonical := by
  obtain h | ⟨j, rfl⟩ := h
  · exact h.canonical
  · exact canonical_nothing j

/-- What stands in a canonical tree is canonical. -/
theorem Canonical.of_within (h : t.Canonical) (hu : u.Within t) : u.Canonical where
  several j v hv := h.several j v (hv.trans hu)
  apart j members inner hv := h.apart j members inner (hv.trans hu)
  bare a hv := h.bare a (hv.trans hu)
  filled v hv := h.filled v (hv.trans hu)
  whole j hv := by
    -- An empty group inside is all of `t`, so that `u` is all of it too.
    obtain rfl := h.whole j (hv.trans hu)
    exact hu.of_nothing

theorem Canonical.normal (h : t.Canonical) (hsome : ∀ j, t ≠ node j []) : t.Normal := by
  induction t with
  | leaf a => exact .leaf a
  | node j members ih =>
    have hmembers : ∀ t ∈ members, t.Normal := by
      intro t ht
      have hwithin : t.Within (node j members) := .member ht .self
      refine ih t ht (h.of_within hwithin) fun k hnil => ?_
      exact hsome k (h.whole k (hnil ▸ hwithin))
    refine .node ?_ hmembers fun t ht hjoined => ?_
    · match members, h, hsome with
      | [], _, hsome => exact absurd rfl (hsome j)
      | [t], h, _ => exact absurd .self (h.several j t)
      | _ :: _ :: _, _, _ => simp
    · cases t with
      | node k inner =>
        obtain rfl := Option.some.inj hjoined
        exact h.apart _ members inner .self ht
      | leaf a => exact nomatch hjoined
      | group t => exact nomatch hjoined
  | group t ih =>
    have hwithin : t.Within t.group := .inner .self
    refine .group (ih (h.of_within hwithin) fun k hnil => ?_) fun a hleaf => ?_
    · exact nomatch h.whole k (hnil ▸ hwithin)
    · exact h.bare a (hleaf ▸ .self)

/-! ### Normalizing -/

/-- The canonical trees are those that normalizing leaves as they are. -/
theorem canonical_iff : t.Canonical ↔ t.normalize = t := by
  constructor
  · intro h
    by_cases hsome : ∃ j, t = node j []
    · exact normalize_of_reduced (.inr hsome)
    · exact normalize_of_normal (h.normal fun j hnil => hsome ⟨j, hnil⟩)
  · intro h
    rw [← h]
    exact (normalize_reduced t).canonical

/-- **Normalizing gives the canonical form of a condition.** The form is canonical and normalizes to
itself; it has the same leaves in the same order, and is empty just when there are none; and it holds
when the condition does, provided that no empty group stands in the condition. -/
theorem normalize_canonical (t : Tree α) :
    t.normalize.Canonical ∧ t.normalize.normalize = t.normalize ∧ t.normalize.leaves = t.leaves ∧
      (t.normalize.isEmpty = true ↔ t.leaves = []) ∧
      ((∀ j, ¬ (node j []).Within t) → ∀ truth, t.normalize.eval truth = t.eval truth) := by
  have hreduced := normalize_reduced t
  refine ⟨hreduced.canonical, normalize_of_reduced hreduced, leaves_normalize t, ?_, fun hfilled truth => ?_⟩
  · rw [isEmpty_normalize, List.isEmpty_iff]
  · exact eval_normalize (populated_iff.mpr hfilled)

/-- A conjunction with a disjunction of one, in which there is another conjunction. -/
def nested : Tree Nat :=
  .node .and [.node .or [.node .and [.leaf 1, .group (.leaf 2)]], .leaf 3]

theorem normalize_canonical_nested :
    nested.normalize = .node .and [.leaf 1, .leaf 2, .leaf 3] ∧ nested.normalize.Canonical ∧
      ∀ truth, nested.normalize.eval truth = nested.eval truth := by
  have hpair : ∀ {t u : Tree Nat}, t.Populated → u.Populated → (node .and [t, u]).Populated :=
    fun ht hu => .node (List.cons_ne_nil _ _)
      (List.forall_mem_cons.mpr ⟨ht, List.forall_mem_singleton.mpr hu⟩)
  have hpopulated : nested.Populated :=
    hpair (.node (List.cons_ne_nil _ _)
      (List.forall_mem_singleton.mpr (hpair (.leaf 1) (.group (.leaf 2))))) (.leaf 3)
  have hwhole := normalize_canonical nested
  exact ⟨rfl, hwhole.1, hwhole.2.2.2.2 (populated_iff.mp hpopulated)⟩

end DocQuery.Tree
