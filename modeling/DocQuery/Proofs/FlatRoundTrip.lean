import DocQuery.Proofs.FlatEncode

/-! Flat conditions there and back.

Both ways go through the symbols. The terms of a list can be told from its symbols
(`gather_symbols`), so the tree of a list is encoded as that list (`encode_decode`). The terms
of a tree spell it and a list decodes to what it spells, so the list of a tree is decoded as
that tree, implied groups aside (`decode_encode`). -/
namespace DocQuery.Flat

open DocQuery.Symbol DocQuery.Tree

variable {α : Type}

/-! ### The terms of symbols -/

/-- What encoding keeps of a list: the first term is joined to nothing, and no term belongs to
a connecting condition. -/
def canonical : List (FlatTerm α) → List (FlatTerm α)
  | [] => []
  | t :: rest =>
    { t with byOr := false, connect := false } :: rest.map fun t => { t with connect := false }

/-- Joins the first term to what stands before it. -/
def joinFirst (j : Joiner) : List (FlatTerm α) → List (FlatTerm α)
  | [] => []
  | t :: rest => { t with byOr := j == .or } :: rest

/-- How many parentheses close before the first term of the symbols, and their terms. -/
def gather : List (Symbol α) → Nat × List (FlatTerm α)
  | [] => (0, [])
  | .openParen :: rest => ((gather rest).1, openFirst (gather rest).2)
  | .closeParen :: rest => ((gather rest).1 + 1, (gather rest).2)
  | .joiner j :: rest => ((gather rest).1, joinFirst j (gather rest).2)
  | .atom a :: rest => (0, { item := a, delta := -((gather rest).1 : Int) } :: (gather rest).2)

theorem gather_closings (n : Nat) (symbols : List (Symbol α)) :
    gather (List.replicate n .closeParen ++ symbols) =
      ((gather symbols).1 + n, (gather symbols).2) := by
  induction n with
  | zero => rfl
  | succ n ih =>
    rw [List.replicate_succ, List.cons_append, gather, ih]
    rfl

theorem gather_openings (n : Nat) {symbols : List (Symbol α)} {closings : Nat} {t : FlatTerm α}
    {rest : List (FlatTerm α)} (h : gather symbols = (closings, t :: rest)) :
    gather (List.replicate n .openParen ++ symbols) =
      (closings, { t with delta := t.delta + n } :: rest) := by
  induction n with
  | zero => simp [h]
  | succ n ih =>
    rw [List.replicate_succ, List.cons_append, gather, ih]
    simp only [openFirst, Int.add_assoc]
    rfl

theorem gather_body (t : FlatTerm α) {symbols : List (Symbol α)} {rest : List (FlatTerm α)}
    (h : gather symbols = (0, rest)) :
    gather (body t ++ symbols) = (0, { t with byOr := false, connect := false } :: rest) := by
  have hatom : gather (.atom t.item :: (List.replicate (-t.delta).toNat .closeParen ++ symbols)) =
      (0, { item := t.item, delta := -((-t.delta).toNat : Int) } :: rest) := by
    rw [gather, gather_closings, h, Nat.zero_add]
  have hdelta : -((-t.delta).toNat : Int) + t.delta.toNat = t.delta := by omega
  rw [body, List.append_assoc, List.cons_append, gather_openings _ hatom, hdelta]

theorem gather_later (list : List (FlatTerm α)) :
    gather (later list) = (0, list.map fun t => { t with connect := false }) := by
  induction list with
  | nil => rfl
  | cons t rest ih =>
    have hjoiner : (joinerOf t.byOr == .or) = t.byOr := by
      cases t.byOr <;> rfl
    rw [later_cons, symbols_cons, gather, gather_body t ih, joinFirst, hjoiner]
    rfl

/-- A list can be told from its symbols. -/
theorem gather_symbols (list : List (FlatTerm α)) : gather (symbols list) = (0, canonical list) := by
  cases list with
  | nil => rfl
  | cons t rest => rw [symbols_cons, gather_body t (gather_later rest), canonical]

/-! ### Encoding what was decoded -/

/-- Encoding clears nothing of a list that is already encoded. -/
theorem canonical_terms {t : Tree α} (h : t.Normal) : canonical (terms false t) = terms false t := by
  obtain ⟨x, rest, hx, hby, -⟩ := ((spelled_of_normal h).ends false).first
  have hconnect := connect_terms false t
  rw [hx] at hconnect ⊢
  have hplain : ∀ y ∈ rest, { y with connect := false } = y := by
    intro y hy
    have hc := hconnect y (List.mem_cons_of_mem x hy)
    rw [← hc]
  have hfirst : { x with byOr := false, connect := false } = x := by
    have hc := hconnect x (List.mem_cons_self ..)
    show FlatTerm.mk x.item false false x.delta = FlatTerm.mk x.item x.byOr x.connect x.delta
    rw [hby, hc]
  rw [canonical, hfirst, List.map_congr_left hplain, List.map_id']

/-- **Encoding undoes decoding.** A list that decodes is given back by encoding its tree: the
same items, joiners and parentheses at every place. Only the first joiner and the marks of
connecting conditions are cleared. The list without a tree is the empty one. -/
theorem encode_decode {list : List (FlatTerm α)} {decoded : Option (Tree α)}
    (h : decode list = .ok decoded) : decoded.elim [] encode = canonical list := by
  rcases decode_cases list with ⟨i, -, hd⟩ | ⟨-, -, hd⟩ | ⟨rfl, hd⟩ | ⟨-, -, t, hd, hnormal, hspelling⟩
  · exact nomatch h.symm.trans hd
  · exact nomatch h.symm.trans hd
  · obtain rfl := Except.ok.inj (h.symm.trans hd)
    rfl
  · obtain rfl := Except.ok.inj (h.symm.trans hd)
    have hsymbols : symbols (terms false t) = symbols list :=
      ((spelled_of_normal hnormal).symbols false).trans hspelling
    have hlists : canonical (terms false t) = canonical list := by
      have hpairs := (gather_symbols (terms false t)).symm.trans
        ((congrArg gather hsymbols).trans (gather_symbols list))
      exact (Prod.mk.inj hpairs).2
    show encode t = canonical list
    rw [encode_of_normal hnormal, ← canonical_terms hnormal, hlists]

/-- The list of ((1 or 2) and (3 or 4)), with marks that say nothing. -/
def nested : List (FlatTerm Nat) :=
  [{ item := 1, byOr := true, connect := true, delta := 2 }, { item := 2, byOr := true, delta := -1 },
    { item := 3, connect := true, delta := 1 }, { item := 4, byOr := true, delta := -2 }]

theorem encode_decode_nested :
    let t : Tree Nat := .group (.node .and [.node .or [.leaf 1, .leaf 2], .node .or [.leaf 3, .leaf 4]])
    decode nested = .ok (some t) ∧ encode t = canonical nested :=
  ⟨rfl, @encode_decode Nat nested (some _) rfl⟩

/-! ### Decoding what was encoded -/

/-- The terms of a normal form decode to it, implied groups aside. -/
theorem decode_terms {t : Tree α} (h : t.Normal) :
    decode (terms false t) = .ok (some t.withoutImplied) := by
  have hspelled := spelled_of_normal h
  exact decode_spelling (hspelled.balanced false) h (hspelled.symbols false).symm

/-- **Decoding undoes encoding.** The list of a condition with a leaf decodes to its normal
form without the groups around a disjunction inside a conjunction; that is the condition
itself when it is in normal form and has no such group. The list of a condition without
leaves decodes to none. -/
theorem decode_encode (t : Tree α) :
    decode (encode t) =
        .ok (if t.leaves.isEmpty then none else some t.normalize.withoutImplied) ∧
      (t.leaves ≠ [] → t.normalize = t → t.NoImplied → decode (encode t) = .ok (some t)) := by
  have hdecode : decode (encode t) =
      .ok (if t.leaves.isEmpty then none else some t.normalize.withoutImplied) := by
    by_cases hleaves : t.leaves = []
    · have hempty : t.normalize.isEmpty = true := by
        rw [isEmpty_normalize, hleaves]
        rfl
      simp [encode, hempty, hleaves]
      rfl
    · have hnormal := normalize_normal hleaves
      have hencode : encode t = terms false t.normalize := by
        simp [encode, hnormal.not_isEmpty]
      rw [hencode, decode_terms hnormal, if_neg (by simpa using hleaves)]
  refine ⟨hdecode, fun hleaves hnormal hno => ?_⟩
  rw [hdecode, if_neg (by simpa using hleaves), hnormal, hno.withoutImplied]

/-- A conjunction in a group that is kept, and two groups in a disjunction that needs none. -/
def groups : Tree Nat :=
  .node .and [.group (.node .and [.leaf 1, .leaf 2]),
    .node .or [.leaf 3, .group (.group (.node .or [.leaf 4, .leaf 5]))]]

theorem decode_encode_groups : decode (encode groups) = .ok (some groups) :=
  (decode_encode groups).2 (List.cons_ne_nil _ _) rfl (withoutImplied_noImplied groups)

end DocQuery.Flat
