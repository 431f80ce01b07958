import DocQuery.Proofs.Disjuncts

/-! How many disjuncts a condition has.

`ways` counts them without a limit: the ways of a disjunction are those of all its members, and a
conjunction has every combination. Counting up to `countLimit` at every step gives the same as counting
all and stopping at `countLimit` in the end (`disjunctCount_eq_min`), since a product of capped counts is
below the limit only where nothing was capped or there is a factor of zero. Expanding gives as many
disjuncts as there are ways (`length_expand`). `disjuncts_counted`: a limit below `countLimit` is kept to
exactly. -/
namespace DocQuery.Tree

variable {α : Type}

/-! ### Counting without a limit -/

mutual

/-- The number of ways to take one member of every disjunction that is reached. -/
def ways : Tree α → Nat
  | leaf _ => 1
  | node .and members => waysOfEvery members
  | node .or members => waysOfSome members
  | group t => ways t

def waysOfEvery : List (Tree α) → Nat
  | [] => 1
  | t :: rest => ways t * waysOfEvery rest

def waysOfSome : List (Tree α) → Nat
  | [] => 0
  | t :: rest => ways t + waysOfSome rest

end

/-! ### Counting up to the limit -/

/-- A factor above the limit can be replaced by the limit. -/
theorem min_mul_min (a b limit : Nat) : min (min a limit * b) limit = min (a * b) limit := by
  rcases Nat.le_total a limit with ha | ha
  · rw [Nat.min_eq_left ha]
  · rw [Nat.min_eq_right ha]
    cases b with
    | zero => rfl
    | succ b =>
      have hcapped : limit ≤ limit * (b + 1) := Nat.le_mul_of_pos_right limit b.succ_pos
      have hwhole : limit ≤ a * (b + 1) := Nat.le_trans ha (Nat.le_mul_of_pos_right a b.succ_pos)
      rw [Nat.min_eq_right hcapped, Nat.min_eq_right hwhole]

theorem countSum_eq_min {members : List (Tree α)} (h : ∀ t ∈ members, t.disjunctCount = min t.ways countLimit)
    {total : Nat} (htotal : total ≤ countLimit) :
    countSum total members = min (total + waysOfSome members) countLimit := by
  induction members generalizing total with
  | nil => exact (Nat.min_eq_left htotal).symm
  | cons t rest ih =>
    have hrest := ih (fun u hu => h u (List.mem_cons_of_mem t hu)) (Nat.min_le_right (total + t.disjunctCount) countLimit)
    rw [countSum, hrest, h t (List.mem_cons_self ..), waysOfSome]
    omega

theorem countProduct_eq_min {members : List (Tree α)} (h : ∀ t ∈ members, t.disjunctCount = min t.ways countLimit)
    {total : Nat} (htotal : total ≤ countLimit) :
    countProduct total members = min (total * waysOfEvery members) countLimit := by
  induction members generalizing total with
  | nil => rw [countProduct, waysOfEvery, Nat.mul_one, Nat.min_eq_left htotal]
  | cons t rest ih =>
    have hrest := ih (fun u hu => h u (List.mem_cons_of_mem t hu)) (Nat.min_le_right (total * t.disjunctCount) countLimit)
    have hfirst : min (total * min t.ways countLimit) countLimit = min (total * t.ways) countLimit := by
      rw [Nat.mul_comm total, min_mul_min, Nat.mul_comm]
    rw [countProduct, hrest, h t (List.mem_cons_self ..), hfirst, min_mul_min, waysOfEvery, Nat.mul_assoc]

/-- Stopping at the limit at every step is counting all and stopping there in the end. -/
theorem disjunctCount_eq_min (t : Tree α) : t.disjunctCount = min t.ways countLimit := by
  induction t with
  | leaf a => rfl
  | group t ih => exact ih
  | node j members ih =>
    cases j with
    | and => rw [disjunctCount, countProduct_eq_min ih (by decide), Nat.one_mul, ways]
    | or => rw [disjunctCount, countSum_eq_min ih (Nat.zero_le _), Nat.zero_add, ways]

/-! ### Expanding -/

/-- Every way gives a disjunct. -/
theorem length_expand (t : Tree α) : t.expand.length = t.ways := by
  induction t with
  | leaf a => rfl
  | group t ih => exact ih
  | node j members ih =>
    cases j with
    | and =>
      rw [expand, ways]
      induction members with
      | nil => rfl
      | cons t rest ihrest =>
        have hrest := ihrest fun u hu => ih u (List.mem_cons_of_mem t hu)
        simp only [expandEvery, waysOfEvery, List.length_flatMap, List.length_map, hrest, List.map_const',
          List.sum_replicate_nat, ih t (List.mem_cons_self ..)]
    | or =>
      rw [expand, ways]
      induction members with
      | nil => rfl
      | cons t rest ihrest =>
        have hrest := ihrest fun u hu => ih u (List.mem_cons_of_mem t hu)
        rw [expandSome, waysOfSome, List.length_append, ih t (List.mem_cons_self ..), hrest]

/-- A condition with leaves is expanded unless there are too many disjuncts. -/
theorem disjuncts_of_leaves {t : Tree α} (h : t.leaves ≠ []) (limit : Nat) :
    t.disjuncts limit =
      if limit < min t.normalize.ways countLimit then .error (.tooMany (min t.normalize.ways countLimit) limit)
      else .ok t.normalize.expand := by
  simp only [disjuncts, (normalize_normal h).not_isEmpty, Bool.false_eq_true, if_false, disjunctCount_eq_min]

/-- **The limit on disjuncts is exact**, although their number is counted only up to `countLimit`: there
are too many just when the normalized condition has more ways than the limit allows, and the error gives
their number as far as it was counted; otherwise there is one disjunct for each way. -/
theorem disjuncts_counted {t : Tree α} {limit : Nat} (hleaf : t.leaves ≠ []) (hlimit : limit < countLimit) :
    (∀ e, t.disjuncts limit = .error e ↔
      limit < t.normalize.ways ∧ e = .tooMany (min t.normalize.ways countLimit) limit) ∧
    (t.normalize.ways ≤ limit → ∃ cs, t.disjuncts limit = .ok cs ∧ cs.length = t.normalize.ways) := by
  have hexact : limit < min t.normalize.ways countLimit ↔ limit < t.normalize.ways := by omega
  rw [disjuncts_of_leaves hleaf]
  constructor
  · intro e
    by_cases hmany : limit < t.normalize.ways
    · rw [if_pos (hexact.mpr hmany), Except.error.injEq]
      exact ⟨fun he => ⟨hmany, he.symm⟩, fun he => he.2.symm⟩
    · rw [if_neg (mt hexact.mp hmany)]
      exact ⟨(fun he => nomatch he), fun he => absurd he.1 hmany⟩
  · intro hfew
    rw [if_neg (mt hexact.mp (Nat.not_lt.mpr hfew))]
    exact ⟨_, rfl, length_expand _⟩

/-- A conjunction of disjunctions of two. -/
def pairs (n : Nat) : Tree Nat :=
  .node .and (List.replicate n (.node .or [.leaf 0, .leaf 1]))

/-- With 64 pairs the count stops one short of the number of ways. -/
theorem disjuncts_counted_pairs :
    ((pairs 64).leaves ≠ [] ∧ 1024 < countLimit ∧ (pairs 64).normalize.ways = countLimit + 1 ∧
      (pairs 64).disjuncts 1024 = .error (.tooMany countLimit 1024)) ∧
    ((pairs 3).leaves ≠ [] ∧ 8 < countLimit ∧ ∃ cs, (pairs 3).disjuncts 8 = .ok cs ∧ cs.length = 8) := by
  have hmany : (pairs 64).leaves ≠ [] := List.cons_ne_nil _ _
  have hways : (pairs 64).normalize.ways = countLimit + 1 := rfl
  have hfew : (pairs 3).leaves ≠ [] := List.cons_ne_nil _ _
  refine ⟨⟨hmany, by decide, hways, ?_⟩, hfew, by decide, ?_⟩
  · refine ((disjuncts_counted hmany (by decide)).1 _).mpr ?_
    rw [hways]
    exact ⟨by decide, rfl⟩
  · exact (disjuncts_counted hfew (by decide)).2 (by decide)

end DocQuery.Tree
