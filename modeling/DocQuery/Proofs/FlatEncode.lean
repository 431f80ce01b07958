import DocQuery.Proofs.FlatDecode

/-! Encoding a tree as a flat condition.

A pair of parentheses is written as one more on the first of its terms and one less on the
last. In a normal form it stands around two terms at least, so no term both opens and closes:
the first term of anything that is enclosed closes nothing and the last opens nothing
(`Ends`). `spelled_of_normal`: the terms of a normal form spell it. -/
namespace DocQuery.Flat

open DocQuery.Symbol DocQuery.Tree

variable {α : Type}

/-- The joiner that a term is marked with. -/
def joinerOf (byOr : Bool) : Joiner := if byOr then .or else .and

theorem joinerOf_beq_or (j : Joiner) : joinerOf (j == .or) = j := by
  cases j <;> rfl

/-! ### Symbols of terms -/

/-- The symbols of a term without the joiner before it. -/
def body (t : FlatTerm α) : List (Symbol α) :=
  List.replicate t.delta.toNat .openParen ++ .atom t.item :: List.replicate (-t.delta).toNat .closeParen

/-- The symbols of terms that are not the first. -/
def later (list : List (FlatTerm α)) : List (Symbol α) :=
  list.flatMap fun t => .joiner (joinerOf t.byOr) :: body t

theorem termSymbols_zero (t : FlatTerm α) : termSymbols 0 t = body t := rfl

theorem termSymbols_succ (index : Nat) (t : FlatTerm α) :
    termSymbols (index + 1) t = .joiner (joinerOf t.byOr) :: body t := rfl

theorem symbolsFrom_succ (index : Nat) (list : List (FlatTerm α)) :
    (symbolsFrom (index + 1) list).map Prod.snd = later list := by
  induction list generalizing index with
  | nil => rfl
  | cons t rest ih =>
    rw [symbolsFrom, List.map_append, ih, List.map_map, termSymbols_succ]
    simp [later, Function.comp_def]

theorem symbols_cons (t : FlatTerm α) (rest : List (FlatTerm α)) :
    symbols (t :: rest) = body t ++ later rest := by
  rw [symbols, symbolsFrom, List.map_append, symbolsFrom_succ, List.map_map, termSymbols_zero]
  simp [Function.comp_def]

theorem later_cons (t : FlatTerm α) (rest : List (FlatTerm α)) :
    later (t :: rest) = .joiner (joinerOf t.byOr) :: symbols (t :: rest) := by
  rw [symbols_cons]
  rfl

theorem symbols_append {list more : List (FlatTerm α)} (hne : list ≠ []) :
    symbols (list ++ more) = symbols list ++ later more := by
  cases list with
  | nil => exact absurd rfl hne
  | cons t rest => simp [symbols_cons, later]

theorem body_open {t : FlatTerm α} (h : 0 ≤ t.delta) :
    body { t with delta := t.delta + 1 } = .openParen :: body t := by
  have hopen : (t.delta + 1).toNat = t.delta.toNat + 1 := by omega
  have hclose : (-(t.delta + 1)).toNat = (-t.delta).toNat := by omega
  simp only [body, hopen, hclose, List.replicate_succ, List.cons_append]

theorem body_close {t : FlatTerm α} (h : t.delta ≤ 0) :
    body { t with delta := t.delta - 1 } = body t ++ [.closeParen] := by
  have hopen : (t.delta - 1).toNat = t.delta.toNat := by omega
  have hclose : (-(t.delta - 1)).toNat = (-t.delta).toNat + 1 := by omega
  simp only [body, hopen, hclose, List.replicate_succ', List.append_assoc, List.cons_append]

/-! ### Enclosed terms -/

/-- Terms that are joined by `byOr` to what stands before them, of which the first closes
nothing and the last opens nothing. -/
structure Ends (byOr : Bool) (terms : List (FlatTerm α)) : Prop where
  first : ∃ t rest, terms = t :: rest ∧ t.byOr = byOr ∧ 0 ≤ t.delta
  last : ∃ rest t, terms = rest ++ [t] ∧ t.delta ≤ 0

theorem Ends.ne_nil {byOr : Bool} {terms : List (FlatTerm α)} (h : Ends byOr terms) : terms ≠ [] := by
  obtain ⟨t, rest, rfl, -⟩ := h.first
  exact List.cons_ne_nil t rest

theorem Ends.append {byOr next : Bool} {list more : List (FlatTerm α)} (h : Ends byOr list)
    (hmore : Ends next more) : Ends byOr (list ++ more) := by
  obtain ⟨t, rest, rfl, hby, hopen⟩ := h.first
  obtain ⟨init, u, rfl, hclose⟩ := hmore.last
  exact ⟨⟨t, rest ++ (init ++ [u]), rfl, hby, hopen⟩, ⟨t :: rest ++ init, u, by simp, hclose⟩⟩

theorem Ends.later {byOr : Bool} {terms : List (FlatTerm α)} (h : Ends byOr terms) :
    Flat.later terms = .joiner (joinerOf byOr) :: symbols terms := by
  obtain ⟨t, rest, rfl, hby, -⟩ := h.first
  rw [later_cons, hby]

theorem closeLast_append (list : List (FlatTerm α)) (t : FlatTerm α) :
    closeLast (list ++ [t]) = list ++ [{ t with delta := t.delta - 1 }] := by
  induction list with
  | nil => rfl
  | cons u rest ih =>
    cases rest with
    | nil => rfl
    | cons v rest => exact congrArg (u :: ·) ih

theorem enclose_cons (t : FlatTerm α) (middle : List (FlatTerm α)) (u : FlatTerm α) :
    enclose (t :: (middle ++ [u])) =
      { t with delta := t.delta + 1 } :: (middle ++ [{ u with delta := u.delta - 1 }]) :=
  closeLast_append ({ t with delta := t.delta + 1 } :: middle) u

/-- Two terms or more have a first and a last term apart. -/
theorem Ends.split {byOr : Bool} {terms : List (FlatTerm α)} (h : Ends byOr terms)
    (hlength : 2 ≤ terms.length) :
    ∃ t middle u, terms = t :: (middle ++ [u]) ∧ t.byOr = byOr ∧ 0 ≤ t.delta ∧ u.delta ≤ 0 := by
  obtain ⟨t, rest, rfl, hby, hopen⟩ := h.first
  obtain ⟨init, u, hinit, hclose⟩ := h.last
  cases init with
  | nil =>
    rw [hinit] at hlength
    simp at hlength
  | cons v middle =>
    obtain ⟨rfl, rfl⟩ := List.cons.inj hinit
    exact ⟨t, middle, u, rfl, hby, hopen, hclose⟩

theorem Ends.enclose {byOr : Bool} {terms : List (FlatTerm α)} (h : Ends byOr terms)
    (hlength : 2 ≤ terms.length) : Ends byOr (enclose terms) := by
  obtain ⟨t, middle, u, rfl, hby, hopen, hclose⟩ := h.split hlength
  rw [enclose_cons]
  refine ⟨⟨_, _, rfl, hby, ?_⟩, ⟨_ :: middle, _, rfl, ?_⟩⟩
  · show 0 ≤ t.delta + 1
    omega
  · show u.delta - 1 ≤ 0
    omega

theorem symbols_enclose {byOr : Bool} {terms : List (FlatTerm α)} (h : Ends byOr terms)
    (hlength : 2 ≤ terms.length) : symbols (Flat.enclose terms) = parenthesized (symbols terms) := by
  obtain ⟨t, middle, u, rfl, -, hopen, hclose⟩ := h.split hlength
  have hlast : later (middle ++ [{ u with delta := u.delta - 1 }]) =
      later (middle ++ [u]) ++ [.closeParen] := by
    simp [later, body_close hclose]
  rw [enclose_cons, symbols_cons, symbols_cons, body_open hopen, hlast]
  simp [parenthesized]

theorem depth_append (list more : List (FlatTerm α)) :
    depth (list ++ more) = depth list + depth more := by
  induction list with
  | nil => simp [depth]
  | cons t rest ih => simp only [List.cons_append, depth, ih, Int.add_assoc]

theorem Balanced.append {list more : List (FlatTerm α)} (h : Balanced list) (hmore : Balanced more) :
    Balanced (list ++ more) := by
  refine ⟨fun k => ?_, ?_⟩
  · rw [List.take_append, depth_append]
    have h1 := h.never k
    have h2 := hmore.never (k - list.length)
    omega
  · rw [depth_append, h.closed, hmore.closed]
    rfl

theorem Balanced.enclose {byOr : Bool} {terms : List (FlatTerm α)} (h : Balanced terms)
    (hends : Ends byOr terms) (hlength : 2 ≤ terms.length) : Balanced (enclose terms) := by
  obtain ⟨t, middle, u, rfl, -⟩ := hends.split hlength
  have hclosed := h.closed
  simp only [depth, depth_append] at hclosed
  rw [enclose_cons]
  refine ⟨fun k => ?_, ?_⟩
  · cases k with
    | zero => simp [depth]
    | succ k =>
      have hnever := h.never (k + 1)
      by_cases hk : k ≤ middle.length
      · rw [List.take_succ_cons, List.take_append_of_le_length hk, depth] at hnever ⊢
        show 0 ≤ t.delta + 1 + depth (middle.take k)
        omega
      · rw [List.take_of_length_le (by simp; omega)]
        simp only [depth, depth_append]
        omega
  · simp only [depth, depth_append]
    omega

/-! ### Terms of a tree -/

theorem map_closeLast {β : Type} {f : FlatTerm α → β} (hf : ∀ t d, f { t with delta := d } = f t)
    (terms : List (FlatTerm α)) : (closeLast terms).map f = terms.map f := by
  induction terms with
  | nil => rfl
  | cons t rest ih =>
    cases rest with
    | nil => exact congrArg (· :: []) (hf t _)
    | cons u rest => exact congrArg (f t :: ·) ih

/-- Enclosing changes the numbers of terms and nothing else. -/
theorem map_enclose {β : Type} {f : FlatTerm α → β} (hf : ∀ t d, f { t with delta := d } = f t)
    (terms : List (FlatTerm α)) : (enclose terms).map f = terms.map f := by
  rw [enclose, map_closeLast hf]
  cases terms with
  | nil => rfl
  | cons t rest => exact congrArg (· :: _) (hf t _)

/-- The terms of a member of a group. -/
def partTerms (j : Joiner) (byOr : Bool) (t : Tree α) : List (FlatTerm α) :=
  if needsParens j t then enclose (terms byOr t) else terms byOr t

theorem map_partTerms {β : Type} {f : FlatTerm α → β} (hf : ∀ t d, f { t with delta := d } = f t)
    (j : Joiner) (byOr : Bool) (t : Tree α) : (partTerms j byOr t).map f = (terms byOr t).map f := by
  rw [partTerms]
  split
  · exact map_enclose hf _
  · rfl

theorem memberTerms_cons (j : Joiner) (byOr : Bool) (t : Tree α) (rest : List (Tree α)) :
    memberTerms j byOr (t :: rest) = partTerms j byOr t ++ memberTerms j (j == .or) rest := rfl

/-- The terms are the leaves in order. -/
theorem items_terms (byOr : Bool) (t : Tree α) : ((terms byOr t).map fun t => t.item) = t.leaves := by
  induction t generalizing byOr with
  | leaf a => rfl
  | node j members ih =>
    rw [terms, leaves]
    induction members generalizing byOr with
    | nil => rfl
    | cons t rest ihrest =>
      rw [memberTerms_cons, List.map_append, map_partTerms (fun _ _ => rfl), ih t (List.mem_cons_self ..),
        ihrest fun u hu => ih u (List.mem_cons_of_mem t hu)]
      rfl
  | group t ih => rw [terms, map_enclose fun _ _ => rfl, ih, leaves]

/-- No term of a tree belongs to a connecting condition. -/
theorem connect_terms (byOr : Bool) (t : Tree α) : ∀ x ∈ terms byOr t, x.connect = false := by
  have hmap : ∀ list : List (FlatTerm α),
      (∀ x ∈ list, x.connect = false) ↔ ∀ c ∈ list.map FlatTerm.connect, c = false := by simp
  induction t generalizing byOr with
  | leaf a => simp [terms]
  | node j members ih =>
    rw [terms]
    induction members generalizing byOr with
    | nil => exact nofun
    | cons t rest ihrest =>
      have ht := (hmap _).mp (ih t (List.mem_cons_self ..) byOr)
      rw [← map_partTerms (j := j) (fun _ _ => rfl), ← hmap] at ht
      have hrest := ihrest (fun u hu => ih u (List.mem_cons_of_mem t hu)) (j == .or)
      rw [memberTerms_cons]
      exact fun x hx => (List.mem_append.mp hx).elim (ht x) (hrest x)
  | group t ih =>
    rw [terms, hmap, map_enclose fun _ _ => rfl]
    exact (hmap _).mp (ih byOr)

theorem length_terms (byOr : Bool) (t : Tree α) : (terms byOr t).length = t.leaves.length := by
  rw [← items_terms byOr t, List.length_map]

/-! ### Terms of a normal form -/

/-- What a tree's terms are to the terms around them. -/
structure Spelled (t : Tree α) : Prop where
  ends : ∀ byOr, Ends byOr (terms byOr t)
  balanced : ∀ byOr, Balanced (terms byOr t)
  symbols : ∀ byOr, symbols (terms byOr t) = t.spelling

theorem partTerms_spelled {t : Tree α} (hnormal : t.Normal) (h : Spelled t) (j : Joiner) (byOr : Bool) :
    Ends byOr (partTerms j byOr t) ∧ Balanced (partTerms j byOr t) ∧
      symbols (partTerms j byOr t) = t.memberSpelling j := by
  rw [partTerms, memberSpelling]
  split
  · next hparens =>
    have hwide : ∀ a, t ≠ .leaf a := by
      rintro a rfl
      simp [needsParens] at hparens
    have hlength : 2 ≤ (terms byOr t).length := by
      rw [length_terms]
      exact hnormal.two_le_leaves hwide
    exact ⟨(h.ends byOr).enclose hlength, (h.balanced byOr).enclose (h.ends byOr) hlength,
      (symbols_enclose (h.ends byOr) hlength).trans (congrArg _ (h.symbols byOr))⟩
  · exact ⟨h.ends byOr, h.balanced byOr, h.symbols byOr⟩

theorem memberTerms_spelled {j : Joiner} {members : List (Tree α)} (hne : members ≠ [])
    (hnormal : ∀ t ∈ members, t.Normal) (h : ∀ t ∈ members, Spelled t) (byOr : Bool) :
    Ends byOr (memberTerms j byOr members) ∧ Balanced (memberTerms j byOr members) ∧
      symbols (memberTerms j byOr members) = joined j (members.map (memberSpelling j)) := by
  induction members generalizing byOr with
  | nil => exact absurd rfl hne
  | cons t rest ih =>
    obtain ⟨hends, hbalanced, hsymbols⟩ := partTerms_spelled (hnormal t (List.mem_cons_self ..))
      (h t (List.mem_cons_self ..)) j byOr
    rw [memberTerms_cons]
    cases rest with
    | nil =>
      rw [memberTerms, List.append_nil]
      exact ⟨hends, hbalanced, hsymbols⟩
    | cons u rest =>
      obtain ⟨hrestEnds, hrestBalanced, hrest⟩ := ih (List.cons_ne_nil _ _)
        (fun v hv => hnormal v (List.mem_cons_of_mem t hv))
        (fun v hv => h v (List.mem_cons_of_mem t hv)) (j == .or)
      refine ⟨hends.append hrestEnds, hbalanced.append hrestBalanced, ?_⟩
      rw [symbols_append hends.ne_nil, hrestEnds.later, hrest, hsymbols, joinerOf_beq_or]
      rfl

/-- The terms of a normal form spell it. -/
theorem spelled_of_normal {t : Tree α} (h : t.Normal) : Spelled t := by
  induction h with
  | leaf a =>
    refine ⟨fun byOr => ⟨⟨_, [], rfl, rfl, Int.le_refl 0⟩, ⟨[], _, rfl, Int.le_refl 0⟩⟩,
      fun byOr => ⟨fun k => ?_, rfl⟩, fun byOr => rfl⟩
    cases k <;> simp [terms, depth]
  | @node j members several normal _ ih =>
    have hne : members ≠ [] := ne_nil_of_several several
    have hmembers := memberTerms_spelled (j := j) hne normal ih
    exact ⟨fun byOr => (hmembers byOr).1, fun byOr => (hmembers byOr).2.1,
      fun byOr => (hmembers byOr).2.2.trans (spelling_node j members).symm⟩
  | @group t normal wide ih =>
    have hlength : ∀ byOr, 2 ≤ (terms byOr t).length := by
      intro byOr
      rw [length_terms]
      exact normal.two_le_leaves wide
    exact ⟨fun byOr => (ih.ends byOr).enclose (hlength byOr),
      fun byOr => (ih.balanced byOr).enclose (ih.ends byOr) (hlength byOr), fun byOr =>
      (symbols_enclose (ih.ends byOr) (hlength byOr)).trans (congrArg _ (ih.symbols byOr))⟩

/-- A normal form is encoded as terms that spell it. -/
theorem encode_of_normal {t : Tree α} (h : t.Normal) : encode t = terms false t := by
  simp [encode, normalize_of_normal h, h.not_isEmpty]

end DocQuery.Flat
