import DocQuery.Proofs.Bracketing
import DocQuery.Proofs.Implied
import Mathlib.Data.Nat.Find

/-! Decoding a flat condition.

The symbols of a tree are read as the sequence of its operands, whatever stands after them
(`readAs_spelling`), so a balanced list decodes to the tree that it spells, without the groups
that are implied (`decode_spelling`).

`decode_outcome`: a list is refused at the first term that closes too much, or else if a group
stays open; any other list is the condition that its symbols read as. -/
namespace DocQuery.Flat

open DocQuery.Symbol DocQuery.Tree

variable {α : Type}

/-! ### Depth -/

/-- The term at `i` is the first to bring the depth below zero. -/
structure FallsAt (list : List (FlatTerm α)) (i : Nat) : Prop where
  inside : i < list.length
  below : depth (list.take (i + 1)) < 0
  before : ∀ k, k ≤ i → 0 ≤ depth (list.take k)

theorem balance_ok (index : Nat) (d : Int) (list : List (FlatTerm α))
    (h : ∀ k, 0 ≤ d + depth (list.take k)) :
    balance index d (list.map fun t => t.delta) = .ok (d + depth list) := by
  induction list generalizing index d with
  | nil => simp [balance, depth]
  | cons t rest ih =>
    have h1 : ¬ d + t.delta < 0 := by
      have := h 1
      simp only [List.take_succ_cons, List.take_zero, depth] at this
      omega
    have hrest : ∀ k, 0 ≤ d + t.delta + depth (rest.take k) := by
      intro k
      have := h (k + 1)
      simp only [List.take_succ_cons, depth] at this
      omega
    simp only [List.map_cons, balance, h1, if_false, ih (index + 1) (d + t.delta) hrest, depth]
    rw [Int.add_assoc]

theorem balance_falls (index i : Nat) (d : Int) (list : List (FlatTerm α)) (hi : i < list.length)
    (hbelow : d + depth (list.take (i + 1)) < 0)
    (hbefore : ∀ k, k ≤ i → 0 ≤ d + depth (list.take k)) :
    balance index d (list.map fun t => t.delta) = .error (.unexpectedClose (index + i)) := by
  induction list generalizing index i d with
  | nil => simp at hi
  | cons t rest ih =>
    simp only [List.map_cons, balance]
    cases i with
    | zero =>
      simp only [List.take_succ_cons, List.take_zero, depth] at hbelow
      rw [if_pos (by omega)]
      rfl
    | succ i =>
      have h1 := hbefore 1 (by omega)
      simp only [List.take_succ_cons, List.take_zero, depth] at h1
      rw [if_neg (by omega), ih (index + 1) i (d + t.delta)]
      · congr 2
        omega
      · simpa using hi
      · simp only [List.take_succ_cons, depth] at hbelow ⊢
        omega
      · intro k hk
        have := hbefore (k + 1) (by omega)
        simp only [List.take_succ_cons, depth] at this
        omega

/-! ### Reading a spelled tree -/

/-- Where a member may begin, the symbols are read as the members `items`, which are given the
joiner before the first; then reading goes on after them. A symbol takes one from the fuel at
most. -/
def IsReadAs (symbols : List (Symbol α)) (items : Joiner → List (Joiner × Tree α)) : Prop :=
  ∀ (fuel : Nat) (j : Joiner) (places rest : List (Nat × Symbol α)),
    places.map Prod.snd = symbols → places.length ≤ fuel →
      ∃ left, fuel ≤ left + places.length ∧
        readMembers fuel j (places ++ rest) = withLater (readMembers left) (items j) rest

/-- Members before those that were found. -/
theorem append_withLater (later : Joiner → List (Nat × Symbol α) → Parsed α)
    (front found : List (Joiner × Tree α)) (symbols : List (Nat × Symbol α)) :
    (match withLater later found symbols with
      | .error e => .error e
      | .ok (more, rest) => .ok (front ++ more, rest)) = withLater later (front ++ found) symbols := by
  match symbols with
  | [] => rfl
  | (_, .atom _) :: _ => rfl
  | (_, .openParen) :: _ => rfl
  | (_, .closeParen) :: _ => rfl
  | (_, .joiner k) :: rest =>
    simp only [withLater]
    cases later k rest with
    | error e => rfl
    | ok parsed => simp only [List.append_assoc]

theorem readAs_atom (a : α) : IsReadAs [.atom a] fun j => [(j, .leaf a)] := by
  intro fuel j places rest hplaces hfuel
  obtain ⟨⟨index, x⟩, rfl, hx⟩ := List.map_eq_singleton_iff.mp hplaces
  obtain rfl : x = .atom a := hx
  cases fuel with
  | zero => simp at hfuel
  | succ fuel => exact ⟨fuel, Nat.le_refl _, rfl⟩

theorem IsReadAs.parenthesized {symbols : List (Symbol α)} {items : Joiner → List (Joiner × Tree α)}
    {t : Tree α} (h : IsReadAs symbols items) (ht : ofSequence? (items .and) = some t) :
    IsReadAs (Symbol.parenthesized symbols) fun j => [(j, .group t)] := by
  intro fuel j places rest hplaces hfuel
  obtain ⟨⟨i, x⟩, inner, rfl, hx, hinner⟩ := List.map_eq_cons_iff.mp hplaces
  obtain ⟨body, last, rfl, hbody, hlast⟩ := List.map_eq_append_iff.mp hinner
  obtain ⟨⟨k, y⟩, rfl, hy⟩ := List.map_eq_singleton_iff.mp hlast
  obtain rfl : x = .openParen := hx
  obtain rfl : y = .closeParen := hy
  simp only [List.length_cons, List.length_append] at hfuel ⊢
  cases fuel with
  | zero => omega
  | succ fuel =>
    obtain ⟨left, -, hread⟩ := h fuel .and body ((k, .closeParen) :: rest) hbody (by omega)
    refine ⟨fuel, by omega, ?_⟩
    simp only [List.cons_append, List.append_assoc, List.nil_append, readMembers, hread]
    simp only [withLater, ht, skipClose]

theorem IsReadAs.join {symbols more : List (Symbol α)}
    {items next : Joiner → List (Joiner × Tree α)} (h : IsReadAs symbols items)
    (hmore : IsReadAs more next) (k : Joiner) :
    IsReadAs (symbols ++ .joiner k :: more) fun j => items j ++ next k := by
  intro fuel j places rest hplaces hfuel
  obtain ⟨front, back, rfl, hfront, hback⟩ := List.map_eq_append_iff.mp hplaces
  obtain ⟨⟨i, x⟩, last, rfl, hx, hlast⟩ := List.map_eq_cons_iff.mp hback
  obtain rfl : x = .joiner k := hx
  simp only [List.length_cons, List.length_append] at hfuel ⊢
  obtain ⟨left, hleft, hread⟩ := h fuel j front ((i, .joiner k) :: (last ++ rest)) hfront (by omega)
  obtain ⟨left', hleft', hread'⟩ := hmore left k last rest hlast (by omega)
  refine ⟨left', by omega, ?_⟩
  rw [List.append_assoc, List.cons_append, hread, withLater, hread']
  exact append_withLater _ _ _ rest

theorem readAs_members {k : Joiner} {members : List (Tree α)} (hne : members ≠ [])
    (h : ∀ t ∈ members, IsReadAs (t.memberSpelling k) fun j =>
      if needsParens k t then [(j, .group t)] else t.items j) :
    IsReadAs (joined k (members.map (memberSpelling k))) fun j => memberItems k j members := by
  induction members with
  | nil => exact absurd rfl hne
  | cons t rest ih =>
    have ht := h t (List.mem_cons_self ..)
    cases rest with
    | nil =>
      simp only [memberItems, List.append_nil]
      exact ht
    | cons u rest =>
      exact ht.join (ih (List.cons_ne_nil u rest) fun v hv => h v (List.mem_cons_of_mem t hv)) k

/-- The symbols of a normal form are read as its operands. -/
theorem readAs_spelling {t : Tree α} (h : t.Normal) (hno : t.NoImplied) :
    IsReadAs t.spelling fun j => t.items j := by
  induction h with
  | leaf a => exact readAs_atom a
  | @node k members several normal _ ih =>
    cases hno with
    | node inner _ =>
      rw [spelling_node]
      refine readAs_members (ne_nil_of_several several) fun t ht => ?_
      rw [memberSpelling]
      split
      · exact (ih t ht (inner t ht)).parenthesized (ofSequence?_items (normal t ht) (inner t ht) .and)
      · exact ih t ht (inner t ht)
  | group normal _ ih =>
    cases hno with
    | group inner => exact (ih inner).parenthesized (ofSequence?_items normal inner .and)

/-- The symbols of a normal form are read to their end. -/
theorem assemble_spelling {t : Tree α} (h : t.Normal) (hno : t.NoImplied)
    {places : List (Nat × Symbol α)} (hplaces : places.map Prod.snd = t.spelling) :
    assemble places = .ok (some t) := by
  obtain ⟨left, -, hread⟩ := readAs_spelling h hno _ .and places [] hplaces (Nat.le_refl _)
  rw [List.append_nil] at hread
  rw [assemble, hread]
  simp only [withLater, ofSequence?_items h hno]

/-! ### Lists -/

/-- A balanced list decodes to the tree that it spells. -/
theorem decode_spelling {list : List (FlatTerm α)} {t : Tree α} (h : Balanced list) (ht : t.Normal)
    (hspelling : t.spelling = symbols list) : decode list = .ok (some t.withoutImplied) := by
  have hbalance := balance_ok 0 0 list (by simpa [NeverNegative] using h.never)
  have hassemble := assemble_spelling ht.withoutImplied (withoutImplied_noImplied t)
    (hspelling.symm.trans (spelling_withoutImplied t).symm)
  simp [decode, hbalance, h.closed, hassemble, bind, Except.bind]

theorem decode_balanced {list : List (FlatTerm α)} (hne : list ≠ []) (h : Balanced list) :
    ∃ t, decode list = .ok (some t) ∧ t.Normal ∧ t.spelling = symbols list := by
  obtain ⟨t, ht, hspelling⟩ := exists_spelling hne h
  exact ⟨_, decode_spelling h ht hspelling, ht.withoutImplied,
    (spelling_withoutImplied t).trans hspelling⟩

theorem falls_or_never (list : List (FlatTerm α)) : (∃ i, FallsAt list i) ∨ NeverNegative list := by
  by_cases h : ∃ k, depth (list.take k) < 0
  · obtain ⟨k, hk, hleast⟩ : ∃ k, depth (list.take k) < 0 ∧ ∀ m, m < k → ¬ depth (list.take m) < 0 :=
      ⟨Nat.find h, Nat.find_spec h, fun m => Nat.find_min h⟩
    left
    cases k with
    | zero => simp [depth] at hk
    | succ i =>
      refine ⟨i, ?_, hk, fun m hm => Int.not_lt.mp (hleast m (by omega))⟩
      -- Beyond the last term the depth no longer changes.
      by_contra hi
      have hall : list.take i = list.take (i + 1) := by
        rw [List.take_of_length_le (by omega), List.take_of_length_le (by omega)]
      exact hleast i (by omega) (hall ▸ hk)
  · exact .inr fun k => Int.not_lt.mp fun hk => h ⟨k, hk⟩

theorem decode_falls {list : List (FlatTerm α)} {i : Nat} (h : FallsAt list i) :
    decode list = .error (.unexpectedClose i) := by
  have hbalance := balance_falls 0 i 0 list h.inside (by simpa using h.below) (by simpa using h.before)
  rw [Nat.zero_add] at hbalance
  simp [decode, hbalance, bind, Except.bind]

theorem decode_open {list : List (FlatTerm α)} (hnever : NeverNegative list) (hdepth : 0 < depth list) :
    decode list = .error (.unclosedGroup (depth list)) := by
  have hbalance := balance_ok 0 0 list (by simpa [NeverNegative] using hnever)
  simp [decode, hbalance, hdepth, bind, Except.bind]

/-- What a list decodes to is settled by its depth. -/
theorem decode_cases (list : List (FlatTerm α)) :
    (∃ i, FallsAt list i ∧ decode list = .error (.unexpectedClose i)) ∨
      (NeverNegative list ∧ 0 < depth list ∧ decode list = .error (.unclosedGroup (depth list))) ∨
      (list = [] ∧ decode list = .ok none) ∨
      (list ≠ [] ∧ Balanced list ∧
        ∃ t, decode list = .ok (some t) ∧ t.Normal ∧ t.spelling = symbols list) := by
  rcases falls_or_never list with ⟨i, hi⟩ | hnever
  · exact .inl ⟨i, hi, decode_falls hi⟩
  · by_cases hdepth : 0 < depth list
    · exact .inr (.inl ⟨hnever, hdepth, decode_open hnever hdepth⟩)
    · have hzero : depth list = 0 := by
        have := hnever list.length
        rw [List.take_length] at this
        omega
      by_cases hne : list = []
      · subst hne
        exact .inr (.inr (.inl ⟨rfl, rfl⟩))
      · have hbalanced : Balanced list := ⟨hnever, hzero⟩
        exact .inr (.inr (.inr ⟨hne, hbalanced, decode_balanced hne hbalanced⟩))

/-- A decoded tree spells its list, and the list's items are its leaves. -/
theorem decode_some {list : List (FlatTerm α)} {t : Tree α} (h : decode list = .ok (some t)) :
    t.Normal ∧ t.spelling = symbols list ∧ t.leaves = list.map fun x => x.item := by
  rcases decode_cases list with ⟨_, -, hd⟩ | ⟨-, -, hd⟩ | ⟨-, hd⟩ | ⟨-, -, u, hd, hnormal, hspelling⟩
  · exact nomatch hd.symm.trans h
  · exact nomatch hd.symm.trans h
  · exact nomatch hd.symm.trans h
  · obtain rfl := Option.some.inj (Except.ok.inj (hd.symm.trans h))
    refine ⟨hnormal, hspelling, ?_⟩
    rw [← atoms_spelling, hspelling, symbols, atoms_symbolsFrom]

/-- **A list decodes just when it is balanced.** A list that is not is refused at the first
term that closes a group that is not open, or else for the groups that stay open; a group is
never empty. The tree of a balanced list has the list's items for leaves, in order, and its
truth is what the list's symbols read as. -/
theorem decode_outcome (list : List (FlatTerm α)) :
    (∀ i, FallsAt list i → decode list = .error (.unexpectedClose i)) ∧
      (NeverNegative list → 0 < depth list → decode list = .error (.unclosedGroup (depth list))) ∧
      (Balanced list → list ≠ [] → ∃ t, decode list = .ok (some t) ∧
        t.leaves = (list.map fun t => t.item) ∧
        ∀ truth b, Reads truth .disjunction (symbols list) b ↔ b = t.eval truth) ∧
      (decode list = .ok none ↔ list = []) ∧
      ((∃ i, FallsAt list i) ∨ NeverNegative list ∧ 0 ≤ depth list) ∧
      ∀ i, decode list ≠ .error (.emptyGroup i) := by
  refine ⟨fun i => decode_falls, decode_open, ?_, ?_, ?_, ?_⟩
  · intro hbalanced hne
    obtain ⟨t, ht, hnormal, hspelling⟩ := decode_balanced hne hbalanced
    refine ⟨t, ht, ?_, fun truth b => ?_⟩
    · rw [← atoms_spelling, hspelling]
      exact atoms_symbolsFrom 0 list
    · rw [← hspelling]
      exact (spelling_reads hnormal truth).iff_eq b
  · constructor
    · intro h
      rcases decode_cases list with ⟨i, -, hd⟩ | ⟨-, -, hd⟩ | ⟨hnil, -⟩ | ⟨-, -, t, hd, -⟩
      · exact nomatch h.symm.trans hd
      · exact nomatch h.symm.trans hd
      · exact hnil
      · exact nomatch h.symm.trans hd
    · rintro rfl
      rfl
  · rcases falls_or_never list with hfalls | hnever
    · exact .inl hfalls
    · refine .inr ⟨hnever, ?_⟩
      have := hnever list.length
      rwa [List.take_length] at this
  · intro i h
    rcases decode_cases list with ⟨k, -, hd⟩ | ⟨-, -, hd⟩ | ⟨-, hd⟩ | ⟨-, -, t, hd, -⟩
    · exact nomatch h.symm.trans hd
    · exact nomatch h.symm.trans hd
    · exact nomatch h.symm.trans hd
    · exact nomatch h.symm.trans hd

/-- A group opens before the 1, and so many close after the 2. -/
def oneGroup (closings : Int) : List (FlatTerm Nat) :=
  [{ item := 1, delta := 1 }, { item := 2, byOr := true, delta := -closings }, { item := 3 }]

theorem decode_outcome_oneGroup :
    (∃ t, decode (oneGroup 1) = .ok (some t) ∧ t.leaves = [1, 2, 3] ∧
        ∀ truth b, Reads truth .disjunction (symbols (oneGroup 1)) b ↔ b = t.eval truth) ∧
      decode (oneGroup 2) = .error (.unexpectedClose 1) ∧
      decode (oneGroup 0) = .error (.unclosedGroup 1) := by
  have hnever : ∀ n : Fin 2, NeverNegative (oneGroup (n : Nat)) := by
    intro n k
    match k with
    | 0 | 1 | 2 => revert n; decide
    | k + 3 =>
      rw [List.take_of_length_le (by simp [oneGroup])]
      revert n
      decide
  refine ⟨(decode_outcome _).2.2.1 ⟨hnever 1, rfl⟩ (List.cons_ne_nil _ _), ?_, ?_⟩
  · exact (decode_outcome _).1 1 ⟨by decide, by decide, by decide⟩
  · exact (decode_outcome _).2.1 (hnever 0) (by decide)

end DocQuery.Flat
