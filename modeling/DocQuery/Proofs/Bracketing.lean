import DocQuery.Proofs.Sequence

/-! Balanced lists.

A list is balanced when its depth never falls below zero and ends there. While such a list is
gone through, the groups that are open hold everything that came before: put back into symbols
(`Levels.text`), they are the symbols of the terms so far. `exists_term` is the step for one
term, `exists_terms` the run over a list. `exists_spelling`: a balanced list spells a tree. -/
namespace DocQuery.Flat

open DocQuery.Symbol DocQuery.Tree

variable {α : Type}

/-! ### Depth -/

/-- The depth is never below zero. -/
def NeverNegative (list : List (FlatTerm α)) : Prop := ∀ k, 0 ≤ depth (list.take k)

/-- Every group that opens closes, and no other. -/
structure Balanced (list : List (FlatTerm α)) : Prop where
  never : NeverNegative list
  closed : depth list = 0

/-! ### Symbols -/

/-- The symbols that a list spells out. -/
def symbols (list : List (FlatTerm α)) : List (Symbol α) := (symbolsFrom 0 list).map Prod.snd

theorem atoms_termSymbols (index : Nat) (t : FlatTerm α) : atoms (termSymbols index t) = [t.item] := by
  have hopen : atoms (List.replicate t.delta.toNat (Symbol.openParen (α := α))) = [] := by
    simp [atoms, atom?, List.filterMap_replicate]
  have hclose : atoms (List.replicate (-t.delta).toNat (Symbol.closeParen (α := α))) = [] := by
    simp [atoms, atom?, List.filterMap_replicate]
  have hlead : ∀ j, atoms (if index = 0 then [] else [Symbol.joiner (α := α) j]) = [] := by
    intro j
    split <;> rfl
  rw [termSymbols, atoms_append, hlead, atoms_append, hopen]
  show t.item :: atoms _ = _
  rw [hclose]

theorem atoms_symbolsFrom (index : Nat) (list : List (FlatTerm α)) :
    atoms ((symbolsFrom index list).map Prod.snd) = list.map fun t => t.item := by
  induction list generalizing index with
  | nil => rfl
  | cons t rest ih =>
    rw [symbolsFrom, List.map_append, atoms_append, ih (index + 1), List.map_map]
    simp [Function.comp_def, atoms_termSymbols]

/-! ### Groups that are open -/

/-- A group that is open: the members before it in the group around it, last first, and the
joiner after them. -/
structure Opening (α : Type) where
  joiner : Joiner
  before : List (Joiner × Tree α)

structure Levels (α : Type) where
  /-- The members of the innermost group so far, last first. -/
  current : List (Joiner × Tree α) := []
  /-- The joiner before the next member. -/
  joiner : Joiner := .and
  /-- The groups around the next member, innermost first. -/
  enclosing : List (Opening α) := []

/-- The symbols of the members of a group, last first, and of the joiner after them. -/
def lead (j : Joiner) (before : List (Joiner × Tree α)) : List (Symbol α) :=
  if before.isEmpty then [] else written before.reverse ++ [.joiner j]

/-- The symbols up to the first member of the innermost group. -/
def opened : List (Opening α) → List (Symbol α)
  | [] => []
  | o :: rest => opened rest ++ lead o.joiner o.before ++ [.openParen]

theorem written_reverse_cons (m : Joiner × Tree α) (before : List (Joiner × Tree α)) :
    written (m :: before).reverse = lead m.1 before ++ m.2.spelling := by
  cases before with
  | nil => simp [written, lead]
  | cons p before =>
    rw [List.reverse_cons, written_append (by simp)]
    simp [lead]

namespace Levels

/-- The symbols up to here when a member has just ended. -/
def text (s : Levels α) : List (Symbol α) := opened s.enclosing ++ written s.current.reverse

/-- The symbols up to here when a member is about to begin. -/
def ahead (s : Levels α) : List (Symbol α) := opened s.enclosing ++ lead s.joiner s.current

/-- Every member is an operand. -/
structure Sound (s : Levels α) : Prop where
  current : ∀ m ∈ s.current, m.2.Operand
  enclosing : ∀ o ∈ s.enclosing, ∀ m ∈ o.before, m.2.Operand

/-- The innermost group is more than one leaf, so that its parentheses are kept. -/
def Wide (s : Levels α) : Prop := s.current ≠ [] ∧ ∀ j a, s.current ≠ [(j, .leaf a)]

/-- Between the terms of a list: nothing came before the first, and a member has ended before
any other. -/
structure Between (index : Nat) (s : Levels α) : Prop where
  sound : s.Sound
  first : index = 0 → s = {}
  later : index ≠ 0 → s.current ≠ []

theorem between_start : Between (α := α) 0 {} := ⟨⟨nofun, nofun⟩, fun _ => rfl, fun h => absurd rfl h⟩

/-! ### One symbol -/

theorem ahead_joiner {s : Levels α} (j : Joiner) (h : s.current ≠ []) :
    ahead { s with joiner := j } = s.text ++ [.joiner j] := by
  have hne : s.current.isEmpty = false := List.isEmpty_eq_false_iff.mpr h
  simp [ahead, text, lead, hne]

theorem text_atom (s : Levels α) (a : α) :
    text { current := (s.joiner, .leaf a) :: s.current, enclosing := s.enclosing } =
      s.ahead ++ [.atom a] := by
  simp only [text, ahead, written_reverse_cons, List.append_assoc]
  rfl

theorem atom_sound {s : Levels α} (a : α) (h : s.Sound) :
    Sound { current := (s.joiner, .leaf a) :: s.current, enclosing := s.enclosing } :=
  ⟨List.forall_mem_cons.mpr ⟨operand_leaf a, h.current⟩, h.enclosing⟩

theorem exists_openings (n : Nat) (s : Levels α) (h : s.Sound) :
    ∃ s' : Levels α, s'.Sound ∧ s'.ahead = s.ahead ++ List.replicate n .openParen ∧
      s'.enclosing.length = s.enclosing.length + n ∧ (n = 0 → s' = s) := by
  induction n generalizing s with
  | zero => exact ⟨s, h, by simp, rfl, fun _ => rfl⟩
  | succ n ih =>
    have hsound : Sound (α := α) { enclosing := ⟨s.joiner, s.current⟩ :: s.enclosing } :=
      ⟨nofun, List.forall_mem_cons.mpr ⟨h.current, h.enclosing⟩⟩
    obtain ⟨s', hs', hahead, hlength, -⟩ := ih _ hsound
    refine ⟨s', hs', ?_, ?_, nofun⟩
    · rw [hahead, List.replicate_succ]
      simp [ahead, opened, lead]
    · rw [hlength, List.length_cons]
      omega

theorem exists_closing {s : Levels α} (h : s.Sound) (hw : s.Wide) (hopen : s.enclosing ≠ []) :
    ∃ s' : Levels α, s'.Sound ∧ s'.Wide ∧ s'.text = s.text ++ [.closeParen] ∧
      s'.enclosing.length + 1 = s.enclosing.length := by
  obtain ⟨current, joiner, enclosing⟩ := s
  cases enclosing with
  | nil => exact absurd rfl hopen
  | cons o rest =>
    have hseq : ∀ m ∈ current.reverse, m.2.Operand := fun m hm => h.current m (List.mem_reverse.mp hm)
    obtain ⟨t, -, hnormal, hspelling, hleaf⟩ :=
      ofSequence?_spells (List.reverse_ne_nil_iff.mpr hw.1) hseq
    have hwide : ∀ a, t ≠ .leaf a := by
      intro a ha
      obtain ⟨j, hj⟩ := hleaf a ha
      exact hw.2 j a (List.reverse_eq_iff.mp hj)
    refine ⟨{ current := (o.joiner, .group t) :: o.before, enclosing := rest }, ⟨?_, ?_⟩,
      ⟨List.cons_ne_nil _ _, ?_⟩, ?_, rfl⟩
    · exact List.forall_mem_cons.mpr ⟨operand_group hnormal hwide, h.enclosing o (List.mem_cons_self ..)⟩
    · exact fun p hp => h.enclosing p (List.mem_cons_of_mem o hp)
    · exact fun j a he => nomatch (Prod.mk.inj (List.cons.inj he).1).2
    · simp only [text, written_reverse_cons, spelling_group, hspelling, opened, parenthesized]
      simp

theorem exists_closings (n : Nat) (s : Levels α) (h : s.Sound) (hne : s.current ≠ [])
    (hw : 0 < n → s.Wide) (hn : n ≤ s.enclosing.length) :
    ∃ s' : Levels α, s'.Sound ∧ s'.current ≠ [] ∧ s'.text = s.text ++ List.replicate n .closeParen ∧
      s'.enclosing.length + n = s.enclosing.length := by
  induction n generalizing s with
  | zero => exact ⟨s, h, hne, by simp, rfl⟩
  | succ n ih =>
    have hopen : s.enclosing ≠ [] := by
      intro he
      rw [he] at hn
      simp at hn
    obtain ⟨s1, hs1, hw1, htext1, hlength1⟩ := exists_closing h (hw (by omega)) hopen
    obtain ⟨s', hs', hne', htext, hlength⟩ := ih s1 hs1 hw1.1 (fun _ => hw1) (by omega)
    refine ⟨s', hs', hne', ?_, by omega⟩
    rw [htext, htext1, List.replicate_succ]
    simp

/-! ### Terms -/

/-- The joiner before a term. -/
theorem exists_joiner {index : Nat} {s : Levels α} (h : Between index s) (j : Joiner) :
    ∃ s' : Levels α, s'.Sound ∧ s'.current = s.current ∧ s'.enclosing = s.enclosing ∧
      s'.ahead = s.text ++ (if index = 0 then [] else [.joiner j]) := by
  by_cases hi : index = 0
  · obtain rfl := h.first hi
    rw [if_pos hi]
    exact ⟨{}, h.sound, rfl, rfl, rfl⟩
  · rw [if_neg hi]
    exact ⟨{ s with joiner := j }, ⟨h.sound.current, h.sound.enclosing⟩, rfl, rfl,
      ahead_joiner j (h.later hi)⟩

/-- A term that does not bring the depth below zero. -/
theorem exists_term {index : Nat} {s : Levels α} (h : Between index s) (t : FlatTerm α)
    (hdepth : 0 ≤ (s.enclosing.length : Int) + t.delta) :
    ∃ s', Between (index + 1) s' ∧ s'.text = s.text ++ termSymbols index t ∧
      (s'.enclosing.length : Int) = s.enclosing.length + t.delta := by
  obtain ⟨s1, hs1, hcurrent1, henclosing1, hahead1⟩ :=
    exists_joiner h (if t.byOr then .or else .and)
  obtain ⟨s2, hs2, hahead2, hlength2, hsame⟩ := exists_openings t.delta.toNat s1 hs1
  let s3 : Levels α := { current := (s2.joiner, .leaf t.item) :: s2.current, enclosing := s2.enclosing }
  -- A term that closes anything opens nothing, and stands in a group that has a member.
  have hwide : 0 < (-t.delta).toNat → s3.Wide := by
    intro hneg
    have hsame := hsame (by omega)
    have hindex : index ≠ 0 := by
      intro hi
      have hempty := h.first hi
      rw [hempty] at hdepth
      simp only [List.length_nil] at hdepth
      omega
    refine ⟨List.cons_ne_nil _ _, fun j a he => h.later hindex ?_⟩
    rw [← hcurrent1, ← hsame]
    exact (List.cons.inj he).2
  have hle : (-t.delta).toNat ≤ s3.enclosing.length := by
    show (-t.delta).toNat ≤ s2.enclosing.length
    rw [hlength2, henclosing1]
    omega
  obtain ⟨s4, hs4, hne4, htext4, hlength4⟩ :=
    exists_closings (-t.delta).toNat s3 (atom_sound t.item hs2) (List.cons_ne_nil _ _) hwide hle
  refine ⟨s4, ⟨hs4, nofun, fun _ => hne4⟩, ?_, ?_⟩
  · rw [htext4, text_atom, hahead2, hahead1, termSymbols]
    simp only [List.append_assoc, List.cons_append, List.nil_append]
  · have : s3.enclosing.length = s2.enclosing.length := rfl
    rw [henclosing1] at hlength2
    omega

/-- A list that never brings the depth below zero. -/
theorem exists_terms {index : Nat} {s : Levels α} (h : Between index s) (list : List (FlatTerm α))
    (hdepth : ∀ k, 0 ≤ (s.enclosing.length : Int) + depth (list.take k)) :
    ∃ s', Between (index + list.length) s' ∧
      s'.text = s.text ++ (symbolsFrom index list).map Prod.snd ∧
      (s'.enclosing.length : Int) = s.enclosing.length + depth list := by
  induction list generalizing index s with
  | nil => exact ⟨s, h, by simp [symbolsFrom], by simp [depth]⟩
  | cons t rest ih =>
    have hfirst : 0 ≤ (s.enclosing.length : Int) + t.delta := by
      have := hdepth 1
      simpa only [List.take_succ_cons, List.take_zero, depth, Int.add_zero] using this
    obtain ⟨s1, hs1, htext1, hlength1⟩ := exists_term h t hfirst
    have hrest : ∀ k, 0 ≤ (s1.enclosing.length : Int) + depth (rest.take k) := by
      intro k
      have := hdepth (k + 1)
      simp only [List.take_succ_cons, depth] at this
      omega
    obtain ⟨s', hs', htext, hlength⟩ := ih hs1 hrest
    refine ⟨s', ?_, ?_, ?_⟩
    · rw [List.length_cons, Nat.add_comm rest.length, ← Nat.add_assoc]
      exact hs'
    · rw [htext, htext1, symbolsFrom]
      simp [Function.comp_def]
    · rw [hlength, hlength1, depth, Int.add_assoc]

end Levels

/-- A balanced list spells a tree. -/
theorem exists_spelling {list : List (FlatTerm α)} (hne : list ≠ []) (h : Balanced list) :
    ∃ t : Tree α, t.Normal ∧ t.spelling = symbols list := by
  obtain ⟨s, hs, htext, hlength⟩ :=
    Levels.exists_terms Levels.between_start list (by simpa [NeverNegative] using h.never)
  have hclosed : s.enclosing = [] := by
    simp only [h.closed] at hlength
    exact List.eq_nil_of_length_eq_zero (by simpa using hlength)
  have hcurrent : s.current.reverse ≠ [] := by
    refine List.reverse_ne_nil_iff.mpr (hs.later ?_)
    have := List.length_pos_iff.mpr hne
    omega
  obtain ⟨t, -, hnormal, hspelling, -⟩ :=
    ofSequence?_spells hcurrent fun m hm => hs.sound.current m (List.mem_reverse.mp hm)
  have hwritten : s.text = written s.current.reverse := by
    rw [Levels.text, hclosed]
    rfl
  exact ⟨t, hnormal, hspelling.trans (hwritten.symm.trans htext)⟩

end DocQuery.Flat
