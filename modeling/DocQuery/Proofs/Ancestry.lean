import DocQuery.Composition.Node
import Mathlib.Data.List.Basic

/-! The nodes above a node.

Where every parent comes before its children, the walk upwards meets just the nodes above a node
(`mem_ancestors`), the nearest first (`ancestors_nearest`), and ends at the root
(`getLast?_ancestors`). -/
namespace DocQuery.Composition

variable {c c' : Composition} {a i p : Nat}

/-- The node at place `a` is above the one at `i`. -/
inductive Above (c : Composition) : Nat → Nat → Prop where
  | parent {p i : Nat} (h : c.parent? i = some p) : Above c p i
  | higher {a p i : Nat} (h : c.parent? i = some p) (above : Above c a p) : Above c a i

/-- What is above a node stays so while parents are kept. -/
theorem Above.mono (hparent : ∀ i p, c.parent? i = some p → c'.parent? i = some p) (h : c.Above a i) :
    c'.Above a i := by
  induction h with
  | parent h => exact .parent (hparent _ _ h)
  | higher h _ ih => exact .higher (hparent _ _ h) ih

/-- Every parent comes before its children. -/
def ParentsFirst (c : Composition) : Prop :=
  ∀ i p, c.parent? i = some p → p < i

theorem ancestors_of_parent (h : c.ParentsFirst) (hp : c.parent? i = some p) :
    c.ancestors i = p :: c.ancestors p := by
  rw [ancestors, hp]
  exact if_pos (h i p hp)

theorem ancestors_of_root (hp : c.parent? i = none) : c.ancestors i = [] := by
  rw [ancestors, hp]

/-- The walk upwards meets just the nodes above. -/
theorem mem_ancestors (h : c.ParentsFirst) : a ∈ c.ancestors i ↔ c.Above a i := by
  induction i using Nat.strongRecOn with
  | _ i ih =>
    cases hp : c.parent? i with
    | none =>
      rw [ancestors_of_root hp]
      refine iff_of_false List.not_mem_nil fun habove => ?_
      cases habove with
      | parent hparent => exact nomatch hp.symm.trans hparent
      | higher hparent _ => exact nomatch hp.symm.trans hparent
    | some p =>
      rw [ancestors_of_parent h hp, List.mem_cons, ih p (h i p hp)]
      constructor
      · rintro (rfl | habove)
        · exact .parent hp
        · exact .higher hp habove
      · intro habove
        cases habove with
        | parent hparent => exact .inl (Option.some.inj (hparent.symm.trans hp))
        | higher hparent habove =>
          obtain rfl := Option.some.inj (hp.symm.trans hparent)
          exact .inr habove

theorem Above.lt (h : c.ParentsFirst) (habove : c.Above a i) : a < i := by
  induction habove with
  | parent hp => exact h _ _ hp
  | higher hp _ ih => exact Nat.lt_trans ih (h _ _ hp)

/-- The nearest comes first. -/
theorem ancestors_nearest (h : c.ParentsFirst) (i : Nat) : (c.ancestors i).Pairwise (· > ·) := by
  induction i using Nat.strongRecOn with
  | _ i ih =>
    cases hp : c.parent? i with
    | none =>
      rw [ancestors_of_root hp]
      exact .nil
    | some p =>
      rw [ancestors_of_parent h hp]
      exact List.pairwise_cons.mpr ⟨fun a ha => ((mem_ancestors h).mp ha).lt h, ih p (h i p hp)⟩

/-- Where only the root has no parent, the walk from any other node ends at the root. -/
theorem getLast?_ancestors (h : c.ParentsFirst) (hroot : c.parent? 0 = none)
    (hparent : ∀ i, 0 < i → i < c.nodes.length → ∃ p, c.parent? i = some p) (hpos : 0 < i)
    (hi : i < c.nodes.length) : (c.ancestors i).getLast? = some 0 := by
  induction i using Nat.strongRecOn with
  | _ i ih =>
    obtain ⟨p, hp⟩ := hparent i hpos hi
    have hlt := h i p hp
    rw [ancestors_of_parent h hp]
    rcases Nat.eq_zero_or_pos p with rfl | hpos'
    · rw [ancestors_of_root hroot]
      rfl
    · rw [List.getLast?_cons, ih p hlt hpos' (Nat.lt_trans hlt hi)]
      rfl

theorem mem_ancestorNodes (h : c.ParentsFirst) {n : Node} :
    (a, n) ∈ c.ancestorNodes i ↔ c.Above a i ∧ c.node? a = some n := by
  rw [ancestorNodes, List.mem_filterMap, ← mem_ancestors h]
  constructor
  · rintro ⟨b, hb, hnode⟩
    obtain ⟨m, hm, heq⟩ := Option.map_eq_some_iff.mp hnode
    obtain ⟨rfl, rfl⟩ := Prod.mk.inj heq
    exact ⟨hb, hm⟩
  · rintro ⟨ha, hn⟩
    exact ⟨a, ha, by rw [hn]; rfl⟩

theorem ancestorNodes_nearest (h : c.ParentsFirst) (i : Nat) :
    (c.ancestorNodes i).Pairwise fun x y => x.1 > y.1 := by
  refine (ancestors_nearest h i).filterMap _ fun a b hab x hx y hy => ?_
  obtain ⟨_, -, rfl⟩ := Option.map_eq_some_iff.mp hx
  obtain ⟨_, -, rfl⟩ := Option.map_eq_some_iff.mp hy
  exact hab

end DocQuery.Composition
