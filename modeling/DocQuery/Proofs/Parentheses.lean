import DocQuery.Proofs.CompiledReading
import DocQuery.Proofs.FlatDecode
import DocQuery.Proofs.Leafwise
import DocQuery.Proofs.Pieces

/-! Parentheses in a compiled text.

A flat condition says with numbers where groups open and close; its text has the parentheses of the
tree that the list decodes to. What counts pairs of parentheses (`CountsPairs`) counts as many in the
symbols of the list as in those of the tree, and in the text these and what the leaves have of their
own: those that a leaf has when it is compiled alone, and a pair around a chain inside a conjunction
(`treeTokens_parentheses`). `compileFlat_parentheses` is the count for the whole text. -/
namespace DocQuery

/-- How often the character stands in the text. -/
def occurrences (ch : Char) (text : String) : Nat :=
  text.toList.count ch

theorem occurrences_append (ch : Char) (s t : String) :
    occurrences ch (s ++ t) = occurrences ch s + occurrences ch t := by
  rw [occurrences, String.toList_append, List.count_append]
  rfl

/-! ### Pairs -/

namespace Symbol

variable {α : Type}

/-- A count of symbols to which each pair of parentheses adds one and a joiner nothing. -/
structure CountsPairs (count : List (Symbol α) → Nat) : Prop where
  append : ∀ ts us, count (ts ++ us) = count ts + count us
  joiner : ∀ j, count [joiner j] = 0
  pair : ∀ ts, count (parenthesized ts) = count ts + 1

namespace CountsPairs

variable {count : List (Symbol α) → Nat}

theorem nil (h : CountsPairs count) : count [] = 0 := by
  have hnil := h.append [] []
  rw [List.append_nil] at hnil
  omega

theorem joined (h : CountsPairs count) (j : Joiner) (parts : List (List (Symbol α))) :
    count (joined j parts) = count parts.flatten := by
  induction parts with
  | nil => rfl
  | cons part rest ih =>
    cases rest with
    | nil => rw [List.flatten_cons, List.flatten_nil, List.append_nil]; rfl
    | cons next rest =>
      show count (part ++ ([.joiner j] ++ Symbol.joined j (next :: rest))) = _
      rw [List.flatten_cons, h.append, h.append, h.append, h.joiner, ih, Nat.zero_add]

theorem pairIf (h : CountsPairs count) (c : Prop) [Decidable c] (ts : List (Symbol α)) :
    count (if c then parenthesized ts else ts) = count ts + if c then 1 else 0 := by
  split
  · exact h.pair ts
  · rfl

end CountsPairs

def isOpening : Symbol α → Bool
  | openParen => true
  | _ => false

/-- How many groups the symbols open. -/
def openings (symbols : List (Symbol α)) : Nat :=
  symbols.countP isOpening

theorem openings_countsPairs : CountsPairs (α := α) openings := by
  refine ⟨fun ts us => List.countP_append, fun j => rfl, fun ts => ?_⟩
  show (openParen :: (ts ++ [closeParen])).countP isOpening = ts.countP isOpening + 1
  rw [List.countP_cons_of_pos rfl, List.countP_append]
  rfl

end Symbol

/-! ### Flat lists -/

namespace Flat

open DocQuery.Symbol

variable {α : Type}

/-- How many groups the terms open. -/
def opens : List (FlatTerm α) → Nat
  | [] => 0
  | t :: rest => t.delta.toNat + opens rest

theorem openings_termSymbols (index : Nat) (t : FlatTerm α) : openings (termSymbols index t) = t.delta.toNat := by
  have hlead : ∀ j, openings (if index = 0 then [] else [joiner (α := α) j]) = 0 := by
    intro j
    split <;> rfl
  have hopen : openings (List.replicate t.delta.toNat (openParen (α := α))) = t.delta.toNat := by
    simp [openings, List.countP_replicate, isOpening]
  have hclose : openings (.atom t.item :: List.replicate (-t.delta).toNat closeParen) = 0 := by
    simp [openings, List.countP_replicate, isOpening]
  rw [termSymbols, openings_countsPairs.append, hlead, openings_countsPairs.append, hopen, hclose]
  omega

theorem openings_symbols (list : List (FlatTerm α)) : openings (symbols list) = opens list := by
  have hfrom : ∀ index, openings ((symbolsFrom index list).map Prod.snd) = opens list := by
    induction list with
    | nil => exact fun _ => rfl
    | cons t rest ih =>
      intro index
      rw [symbolsFrom, List.map_append, openings_countsPairs.append, ih, List.map_map, opens]
      exact congrArg (· + opens rest) ((congrArg openings (List.map_id _)).trans (openings_termSymbols index t))
  exact hfrom 0

end Flat

/-! ### Trees -/

namespace Tree

open DocQuery.Symbol

variable {α : Type}

mutual

/-- The leaves from left to right, each with what joins the group that it is a member of, if it is a
member of one. -/
def leavesWithin (inside : Option Joiner) : Tree α → List (Option Joiner × α)
  | leaf a => [(inside, a)]
  | node j members => leavesWithinAll j members
  | group t => leavesWithin none t

def leavesWithinAll (j : Joiner) : List (Tree α) → List (Option Joiner × α)
  | [] => []
  | t :: rest => leavesWithin (some j) t ++ leavesWithinAll j rest

end

theorem leavesWithin_node (inside : Option Joiner) (j : Joiner) (members : List (Tree α)) :
    (node j members).leavesWithin inside = members.flatMap (leavesWithin (some j)) := by
  rw [leavesWithin]
  induction members with
  | nil => rfl
  | cons t rest ih => rw [leavesWithinAll, ih, List.flatMap_cons]

/-- They are the leaves. -/
theorem leavesWithin_leaves (inside : Option Joiner) (t : Tree α) :
    (t.leavesWithin inside).map Prod.snd = t.leaves := by
  induction t generalizing inside with
  | leaf a => rfl
  | group t ih => exact ih none
  | node j members ih =>
    rw [leavesWithin_node, List.map_flatMap, leaves_node]
    exact List.flatMap_congr fun t ht => ih t ht (some j)

end Tree

namespace Sql

open DocQuery.Symbol DocQuery.Tree

/-! ### Dialects -/

/-- The dialects of the library: that of Postgres, and those put together from settings. -/
inductive Dialect.Provided : Dialect → Prop where
  | postgres : Provided .postgres
  | settings (s : Settings) : Provided s.dialect

variable {paren : Char}

theorem occurrences_numbered (hparen : paren ∈ ['(', ')']) (place : Nat) :
    occurrences paren (numberedPlaceholder place) = 0 := by
  refine List.count_eq_zero.mpr fun hmem => ?_
  have hchars : (numberedPlaceholder place).toList = '$' :: Nat.toDigits 10 place := by
    simp [numberedPlaceholder]
  rw [hchars] at hmem
  rcases List.mem_cons.mp hmem with rfl | hdigit
  · exact absurd hparen (by decide)
  · have hisDigit := Nat.isDigit_of_mem_toDigits (by decide) (by decide) hdigit
    simp only [List.mem_cons, List.not_mem_nil, or_false] at hparen
    rcases hparen with rfl | rfl <;> exact absurd hisDigit (by decide)

/-- No placeholder has parentheses. -/
theorem Dialect.Provided.placeholder {d : Dialect} (hd : d.Provided) (hparen : paren ∈ ['(', ')'])
    (place : Nat) : occurrences paren (d.placeholder place) = 0 := by
  cases hd with
  | postgres => exact occurrences_numbered hparen place
  | settings s =>
    show occurrences paren (s.placeholder.text place) = 0
    cases s.placeholder with
    | dollar => exact occurrences_numbered hparen place
    | question =>
      show occurrences paren "?" = 0
      simp only [List.mem_cons, List.not_mem_nil, or_false] at hparen
      rcases hparen with rfl | rfl <;> decide

/-! ### Texts -/

theorem render_append (d : Dialect) (ts us : List Token) : render d (ts ++ us) = render d ts ++ render d us := by
  rw [render, List.map_append, String.join_append]
  rfl

/-- Each pair of parentheses around tokens is one of either sort in the text. -/
theorem render_countsPairs (d : Dialect) (hparen : paren ∈ ['(', ')']) :
    CountsPairs fun tokens : List Token => occurrences paren (render d tokens) := by
  simp only [List.mem_cons, List.not_mem_nil, or_false] at hparen
  refine ⟨fun ts us => ?_, fun j => ?_, fun ts => ?_⟩
  · rw [render_append, occurrences_append]
  · have hjoiner : render d [joiner j] = joinerText j := by simp [render, Token.text]
    rw [hjoiner]
    rcases hparen with rfl | rfl <;> cases j <;> decide
  · have hparts : render d (parenthesized ts) = "(" ++ render d ts ++ ")" := by
      show render d ([openParen] ++ ts ++ [closeParen]) = _
      rw [render_append, render_append]
      rfl
    rw [hparts, occurrences_append, occurrences_append]
    rcases hparen with rfl | rfl
    · exact Nat.add_comm 1 _
    · exact congrArg (· + 1) (Nat.zero_add _)

/-- Pieces have as many as their fixed texts, if no placeholder has any. -/
theorem occurrences_fill {ch : Char} {placeholder placeholder' : Nat → String}
    (h : ∀ n, occurrences ch (placeholder n) = 0) (h' : ∀ n, occurrences ch (placeholder' n) = 0)
    (pieces : List Piece) : occurrences ch (fill placeholder pieces) = occurrences ch (fill placeholder' pieces) := by
  induction pieces with
  | nil => rfl
  | cons piece rest ih =>
    rw [fill_cons, fill_cons, occurrences_append, occurrences_append, ih]
    cases piece with
    | text s => rfl
    | place n =>
      show occurrences ch (placeholder n) + _ = occurrences ch (placeholder' n) + _
      rw [h, h']

/-- It does not show in the parentheses what was bound before. -/
theorem occurrences_raise {ch : Char} {d : Dialect} (h : ∀ n, occurrences ch (d.placeholder n) = 0) (k : Nat)
    (tokens : List Token) :
    occurrences ch (render d (Placed.raise k tokens)) = occurrences ch (render d tokens) := by
  rw [render_raise, render_eq_fill, render_eq_fill]
  show occurrences ch (fill (d.after k).placeholder (pieces { d with placeholder := _ } tokens)) = _
  rw [pieces_withPlaceholder]
  exact occurrences_fill (fun n => h (n + k)) h (pieces d tokens)

/-! ### Compiled conditions -/

section Compiled

variable (d : Dialect) (params : ParamSet)

/-- The text of a predicate that is compiled on its own, if it compiles. -/
def ownText (p : Predicate) : String :=
  match compileTree d params (.leaf p) with
  | .ok c => c.text
  | .error _ => ""

/-- The predicate is written as several terms joined by "or". -/
def writesChain (p : Predicate) : Bool :=
  match (fragment d.numbered params p).run.run #[] with
  | (.ok f, _) => f.terms.length > 1 && f.joiner == .or
  | (.error _, _) => false

/-- The predicate is written as such a chain and is a member of a conjunction. -/
def wrapped (leaf : Option Joiner × Predicate) : Bool :=
  leaf.1 == some .and && writesChain d params leaf.2

variable {d params}

theorem ownText_of_run {p : Predicate} {f : Fragment} {values : Array Value}
    (h : (fragment d.numbered params p).run.run #[] = (.ok f, values)) :
    ownText d params p = render d (f.tokens none) := by
  simp only [ownText, compileTree_leaf h]

theorem leaf_parentheses (hparen : paren ∈ ['(', ')']) (hplain : ∀ n, occurrences paren (d.placeholder n) = 0)
    (inside : Option Joiner) (p : Predicate) :
    Ensures (Fragment.tokens inside <$> fragment d.numbered params p) fun tokens =>
      occurrences paren (render d tokens) =
        occurrences paren (ownText d params p) + if wrapped d params (inside, p) then 1 else 0 := by
  intro bound tokens after hrun
  obtain ⟨given, hgiven, rfl⟩ := run_map_ok hrun
  obtain ⟨f, values, halone, rfl, -⟩ := (fragment_writes p).alone hgiven
  have hwrapped : wrapped d params (inside, p) =
      decide (f.terms.length > 1 ∧ f.joiner = .or ∧ inside = some .and) := by
    simp only [wrapped, writesChain, halone]
    grind
  rw [← raise_tokens, occurrences_raise hplain, ownText_of_run halone, hwrapped]
  have htokens : f.tokens inside = if f.terms.length > 1 ∧ f.joiner = .or ∧ inside = some .and
      then parenthesized (f.tokens none) else f.tokens none := by
    simp [Fragment.tokens]
  rw [htokens, (render_countsPairs d hparen).pairIf]
  simp

/-- The text of a tree has the parentheses of its groups, those of its leaves on their own, and a pair
for each chain inside a conjunction. -/
theorem treeTokens_parentheses (hparen : paren ∈ ['(', ')']) (hplain : ∀ n, occurrences paren (d.placeholder n) = 0)
    (inside : Option Joiner) (t : Tree Predicate) :
    Ensures (treeTokens d.numbered params inside t) fun tokens =>
      occurrences paren (render d tokens) = openings t.spelling +
        occurrences paren (String.join (t.leaves.map (ownText d params))) +
        (t.leavesWithin inside).countP (wrapped d params) := by
  have hcounts := render_countsPairs d hparen
  induction t generalizing inside with
  | leaf p =>
    refine fun bound tokens after hrun => (leaf_parentheses hparen hplain inside p bound tokens after hrun).trans ?_
    simp [leavesWithin, leaves, List.countP_cons, spelling, layout, openings, isOpening]
  | group t ih =>
    refine (ih none).map fun tokens htokens => ?_
    rw [hcounts.pair, htokens, spelling_group, openings_countsPairs.pair]
    simp only [leaves, leavesWithin]
    omega
  | node j members ih =>
    have hmembers : Ensures (memberTokens d.numbered params j members) fun parts =>
        occurrences paren (render d parts.flatten) = openings (members.map (memberSpelling j)).flatten +
          occurrences paren (String.join ((members.flatMap leaves).map (ownText d params))) +
          (members.flatMap (leavesWithin (some j))).countP (wrapped d params) := by
      induction members with
      | nil => exact Ensures.pure rfl
      | cons t rest ihrest =>
        refine (ih t (List.mem_cons_self ..) (some j)).bind fun tokens htokens =>
          (ihrest fun u hu => ih u (List.mem_cons_of_mem t hu)).bind fun parts hparts => Ensures.pure ?_
        simp only [List.map_cons, List.flatten_cons, List.flatMap_cons, List.map_append, List.countP_append,
          String.join_append, occurrences_append, hcounts.append, openings_countsPairs.append, memberSpelling,
          hcounts.pairIf, openings_countsPairs.pairIf, htokens, hparts]
        omega
    refine hmembers.map fun parts hparts => ?_
    rw [hcounts.joined, hparts, spelling_node, openings_countsPairs.joined, leaves_node, leavesWithin_node]

end Compiled

theorem ownText_eq {d : Dialect} {params : ParamSet} {ps : List Predicate} {parts : List Compiled}
    (h : List.Forall₂ (fun p part => compileTree d params (.leaf p) = .ok part) ps parts) :
    ps.map (ownText d params) = parts.map Compiled.text := by
  induction h with
  | nil => rfl
  | cons hfirst _ ih => rw [List.map_cons, List.map_cons, ih, ownText, hfirst]

/-- A text of which no part has the character does not have it. -/
theorem occurrences_join_eq_zero {ch : Char} {texts : List String} (h : ∀ s ∈ texts, occurrences ch s = 0) :
    occurrences ch (String.join texts) = 0 := by
  induction texts with
  | nil => rfl
  | cons s rest ih =>
    obtain ⟨hs, hrest⟩ := List.forall_mem_cons.mp h
    rw [String.join_cons, occurrences_append, hs, ih hrest]

theorem compileFlat_ok {d : Dialect} {params : ParamSet} {list : List (FlatTerm Predicate)} {c : Compiled}
    (h : compileFlat d params list = .ok (some c)) :
    ∃ t, Flat.decode list = .ok (some t) ∧ compileTree d params t = .ok c := by
  unfold compileFlat at h
  split at h
  · exact nomatch h
  · exact nomatch h
  · next t hdecode =>
    cases hcompiled : compileTree d params t with
    | error e => rw [hcompiled] at h; exact nomatch h
    | ok b =>
      rw [hcompiled] at h
      exact ⟨t, hdecode, hcompiled.trans (congrArg Except.ok (Option.some.inj (Except.ok.inj h)))⟩

/-- **Parentheses match the flat list.** Opening and closing ones are as many as the groups that the
terms of the list open, together with those that the conditions have in their own texts and one for
each condition that is a chain of terms joined by "or" and stands in a conjunction of the tree. Where
no condition has any of its own and none is such a chain, they are as many as the groups. -/
theorem compileFlat_parentheses {d : Dialect} (hd : d.Provided) {params : ParamSet}
    {list : List (FlatTerm Predicate)} {c : Compiled} (h : compileFlat d params list = .ok (some c)) :
    ∃ (t : Tree Predicate) (parts : List Compiled), Flat.decode list = .ok (some t) ∧
      (t.leavesWithin none).map Prod.snd = list.map (fun x => x.item) ∧
      List.Forall₂ (fun x part => compileTree d params (.leaf x.item) = .ok part) list parts ∧
      ∀ paren ∈ ['(', ')'],
        occurrences paren c.text = Flat.opens list +
          occurrences paren (String.join (parts.map Compiled.text)) +
          (t.leavesWithin none).countP (wrapped d params) ∧
        ((∀ part ∈ parts, occurrences paren part.text = 0) →
          (∀ x ∈ list, writesChain d params x.item = false) → occurrences paren c.text = Flat.opens list) := by
  obtain ⟨t, hdecode, hcompiled⟩ := compileFlat_ok h
  obtain ⟨hnormal, hspelling, hitems⟩ := Flat.decode_some hdecode
  obtain ⟨hleaf, tokens, htext, hrun⟩ := compileTree_ok hcompiled
  obtain ⟨parts, hparts, -⟩ := compileTree_parts hcompiled
  have hplaced : (t.leavesWithin none).map Prod.snd = list.map fun x => x.item :=
    (leavesWithin_leaves none t).trans hitems
  rw [condition_of_leaves hleaf, normalize_of_normal hnormal] at hrun
  have htotal : ∀ paren ∈ ['(', ')'], occurrences paren c.text = Flat.opens list +
      occurrences paren (String.join (parts.map Compiled.text)) +
      (t.leavesWithin none).countP (wrapped d params) := by
    intro paren hparen
    rw [htext, treeTokens_parentheses hparen (hd.placeholder hparen) none t _ _ _ hrun, hspelling,
      Flat.openings_symbols, ownText_eq hparts]
  refine ⟨t, parts, hdecode, hplaced, List.forall₂_map_left_iff.mp (hitems ▸ hparts), fun paren hparen =>
    ⟨htotal paren hparen, fun hnone hsingle => ?_⟩⟩
  have hwrapped : (t.leavesWithin none).countP (wrapped d params) = 0 := by
    refine List.countP_eq_zero.mpr fun leaf hmem => ?_
    have hitem : leaf.2 ∈ list.map fun x => x.item := hplaced ▸ List.mem_map_of_mem hmem
    obtain ⟨x, hx, hxitem⟩ := List.mem_map.mp hitem
    simp [wrapped, ← hxitem, hsingle x hx]
  have htexts : occurrences paren (String.join (parts.map Compiled.text)) = 0 :=
    occurrences_join_eq_zero fun s hs => by
      obtain ⟨part, hpart, rfl⟩ := List.mem_map.mp hs
      exact hnone part hpart
  rw [htotal paren hparen, htexts, hwrapped]
  rfl

/-! A chain beside another condition in a group, and two masks, each in parentheses of its own, that are a chain
in the conjunction. -/

def pallet : Document where
  path := "dock.Pallet"
  name := "Pallet"
  storage := "pallets"
  fields := [{ name := "flags", storage := "Flags", kind := .bits }]

def flagged (op : Operator) (v : Value) (byOr : Bool) (delta : Int) : FlatTerm Predicate where
  item :=
    { qualifier := ""
      field := ⟨pallet, [⟨pallet, { name := "flags", storage := "Flags", kind := .bits }⟩], List.cons_ne_nil _ _⟩
      op
      operand := .const v }
  byOr
  delta

def pallets : List (FlatTerm Predicate) :=
  [flagged .notLike (.list [.int 1, .int 2]) false 1, flagged .bitsOr (.uint 4) true (-1),
    flagged .bitsAnd (.list [.int 8, .int 16]) false 0]

def palletsCompiled : Compiled :=
  ⟨"(\"Flags\" NOT LIKE $1 OR \"Flags\" NOT LIKE $2 OR (\"Flags\" & $3) <> 0) AND " ++
    "((\"Flags\" & $4) = $4 OR (\"Flags\" & $5) = $5)", [.int 1, .int 2, .uint 4, .int 8, .int 16]⟩

theorem compileFlat_parentheses_pallets :
    compileFlat .postgres {} pallets = .ok (some palletsCompiled) ∧
    ∃ (t : Tree Predicate) (parts : List Compiled), Flat.decode pallets = .ok (some t) ∧
      (t.leavesWithin none).map Prod.snd = pallets.map (fun x => x.item) ∧
      occurrences '(' palletsCompiled.text = 1 + occurrences '(' (String.join (parts.map Compiled.text)) +
        (t.leavesWithin none).countP (wrapped .postgres {}) := by
  have hcompiled : compileFlat .postgres {} pallets = .ok (some palletsCompiled) := rfl
  obtain ⟨t, parts, hdecode, hplaced, -, hcount⟩ := compileFlat_parentheses .postgres hcompiled
  exact ⟨hcompiled, t, parts, hdecode, hplaced, (hcount '(' (by decide)).1⟩

end Sql

end DocQuery
