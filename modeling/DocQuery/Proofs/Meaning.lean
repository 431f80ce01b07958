import DocQuery.Proofs.CompiledLeaves
import DocQuery.Proofs.ThreeValued

/-! What compiled conditions mean in a database.

Terms have three truth values in a row, as in SQL: a comparison with a null is unknown, being one of some
values is a disjunction of comparisons, lying between two is a conjunction of two. How values that are not
null compare, and what lower case is, is left to the database. By the grammar, the text of a compiled
condition then has one truth in a row (`Says`); it is the truth of the normal form when each leaf has its own,
wherever the leaves stand and whatever is bound before them (`compileTree_means`). -/
namespace DocQuery

/-- The 64-bit pattern of a whole number. -/
def Value.bits? : Value → Option (BitVec 64)
  | int n => some n.toBitVec
  | uint n => some n.toBitVec
  | _ => none

/-- The values that a membership test looks at. -/
def Value.members (v : Value) : List Value :=
  v.items?.getD [v]

namespace Truth

/-- The opposite, if `negated`. -/
def turned (negated : Bool) (k : Truth) : Truth :=
  if negated then k.not else k

end Truth

namespace Tree

variable {α β : Type}

theorem weigh_map (f : α → β) (truth : β → Truth) (t : Tree α) :
    (t.map f).weigh truth = t.weigh fun a => truth (f a) := by
  induction t with
  | leaf a => rfl
  | group t ih => exact ih
  | node j members ih =>
    rw [map_node, weigh_node, weigh_node, List.map_map]
    exact congrArg (Truth.join j) (List.map_congr_left ih)

theorem weigh_congr {t : Tree α} {truth other : α → Truth} (h : ∀ a ∈ t.leaves, truth a = other a) :
    t.weigh truth = t.weigh other := by
  induction t with
  | leaf a => exact h a (List.mem_singleton_self a)
  | group t ih => exact ih h
  | node j members ih =>
    rw [weigh_node, weigh_node]
    refine congrArg (Truth.join j) (List.map_congr_left fun t ht => ih t ht fun a ha => h a ?_)
    rw [leaves_node]
    exact List.mem_flatMap.mpr ⟨t, ht, ha⟩

end Tree

namespace Sql

open DocQuery.Symbol Placed

/-! ### Terms -/

/-- What a database knows of values: how two that are not null compare, and the lower-case function. -/
structure Database where
  compares : String → Value → Value → Truth
  lower : Value → Value

namespace Database

variable (db : Database)

/-- A comparison with a null is unknown. -/
def compare (symbol : String) (v w : Value) : Truth :=
  if v.isNull || w.isNull then .unknown else db.compares symbol v w

/-- In lower case, if asked. -/
def folded (fold : Bool) (v : Value) : Value :=
  if fold && !v.isNull then db.lower v else v

end Database

/-- The values of the columns in one row. -/
abbrev Row := Column → Value

section Terms

variable (db : Database) (row : Row) (values : List Value)

def Side.value : Side → Value
  | bound place => values[place - 1]?.getD .null
  | column c => row c

/-- Some bit is set in both; unknown unless both are whole numbers. -/
def someBits (v mask : Value) : Truth :=
  match v.bits?, mask.bits? with
  | some bits, some asked => .ofBool (bits &&& asked != 0)
  | _, _ => .unknown

/-- The bits that are set in both are those of a third. -/
def allBits (v mask again : Value) : Truth :=
  match v.bits?, mask.bits?, again.bits? with
  | some bits, some asked, some all => .ofBool (bits &&& asked == all)
  | _, _, _ => .unknown

/-- The truth of a term in the row, where the values are bound. -/
def Term.truth : Term → Truth
  | nullTest negated c => .turned negated (.ofBool (row c).isNull)
  | compare symbol fold c other =>
    db.compare symbol (db.folded fold (row c)) (db.folded fold (other.value row values))
  | member negated fold c other => .turned negated
    (.join .or ((other.value row values).members.map fun v => db.compare "=" (db.folded fold (row c)) v))
  | range negated _ c low high => .turned negated
    ((db.compare ">=" (row c) ((Side.bound low).value row values)).and
      (db.compare "<=" (row c) ((Side.bound high).value row values)))
  | allBits c mask again => Sql.allBits (row c) (mask.value row values) (again.value row values)
  | someBits c mask => Sql.someBits (row c) (mask.value row values)
  | never => .no

/-- The truth of a leaf with its terms: all terms of a negated test hold, or one term of any other. -/
def leafTruth (leaf : Predicate × Fragment) : Truth :=
  .join (chainJoiner leaf.1.op) (leaf.2.terms.map fun t => t.truth db row values)

variable {db row values} {before later : List Value}

/-- A side whose place is bound has the same value after and before others. -/
theorem value_raise {s : Side} (h : ∀ n ∈ s.places, 0 < n ∧ ∃ v, values[n - 1]? = some v) :
    (s.raise before.length).value row (before ++ values ++ later) = s.value row values := by
  cases s with
  | column c => rfl
  | bound n =>
    obtain ⟨hpos, v, hv⟩ := h n (List.mem_singleton_self n)
    show (before ++ values ++ later)[n + before.length - 1]?.getD .null = values[n - 1]?.getD .null
    rw [getElem?_raised hpos hv, hv]

/-- A term whose places are bound has the same truth after and before other values. -/
theorem truth_raise {t : Term} (h : ∀ n ∈ t.places, 0 < n ∧ ∃ v, values[n - 1]? = some v) :
    (t.raise before.length).truth db row (before ++ values ++ later) = t.truth db row values := by
  cases t with
  | nullTest negated c => rfl
  | never => rfl
  | compare symbol fold c other => rw [Term.raise, Term.truth, Term.truth, value_raise h]
  | member negated fold c other => rw [Term.raise, Term.truth, Term.truth, value_raise h]
  | someBits c mask => rw [Term.raise, Term.truth, Term.truth, value_raise h]
  | allBits c mask again =>
    rw [Term.raise, Term.truth, Term.truth, value_raise fun n hn => h n (List.mem_append_left _ hn),
      value_raise fun n hn => h n (List.mem_append_right _ hn)]
  | range negated parens c low high =>
    have hlow : ∀ n ∈ (Side.bound low).places, 0 < n ∧ ∃ v, values[n - 1]? = some v :=
      fun n hn => h n (List.mem_append_left [high] hn)
    have hhigh : ∀ n ∈ (Side.bound high).places, 0 < n ∧ ∃ v, values[n - 1]? = some v :=
      fun n hn => h n (List.mem_append_right [low] hn)
    rw [Term.raise, Term.truth, Term.truth, ← value_raise hlow, ← value_raise hhigh]
    rfl

/-- A threshold sees a leaf as the leaf of what it sees in the terms. -/
theorem threshold_leafTruth {f : Truth → Bool} (hf : Truth.Threshold f) (leaf : Predicate × Fragment) :
    f (leafTruth db row values leaf) = leafHolds (fun t => f (t.truth db row values)) leaf := by
  unfold leafTruth leafHolds
  cases chainJoiner leaf.1.op with
  | and => rw [hf.join_and, List.map_map, List.all_map, Function.id_comp]; rfl
  | or => rw [hf.join_or, List.map_map, List.any_map, Function.id_comp]; rfl

/-- What is written for a tree of leaves with their terms denotes the tree's truth. -/
theorem layout_denotes {u : Tree (Predicate × Fragment)} (hnormal : u.Normal)
    (hformed : ∀ leaf ∈ u.leaves, Formed leaf.1.op leaf.2) (k : Truth) :
    Denotes (fun t => t.truth db row values) .disjunction (u.layout leafTokens none) k ↔
      k = u.weigh (leafTruth db row values) := by
  refine denotes_iff (fun f hf => ?_) k
  have hreads := Tree.layout_reads hnormal (fun leaf hleaf inside =>
    leafTokens_reads (hformed leaf hleaf) (fun t => f (t.truth db row values)) inside) none
  rw [Tree.threshold_weigh hf, funext (threshold_leafTruth hf)]
  exact hreads.widen

end Terms

/-! ### Conditions -/

section Conditions

variable (d : Dialect) (params : ParamSet) (db : Database) (row : Row)

/-- The condition is compiled, and by the grammar its text denotes this truth in the row and no other. -/
def Says (t : Tree Predicate) (k : Truth) : Prop :=
  ∃ c tokens, compileTree d params t = .ok c ∧ c.text = render d tokens ∧
    (condition d.numbered params t).run.run #[] = (.ok tokens, c.params.toArray) ∧
    ∀ k', Denotes (fun term => term.truth db row c.params) .disjunction tokens k' ↔ k' = k

/-- The truth of what the predicate gives on its own. -/
def truthOf (p : Predicate) : Truth :=
  match (fragment d.numbered params p).run.run #[] with
  | (.ok f, values) => leafTruth db row values.toList (p, f)
  | (.error _, _) => .unknown

variable {d params db row}

theorem Says.unique {t : Tree Predicate} {k k' : Truth} (h : Says d params db row t k)
    (h' : Says d params db row t k') : k' = k := by
  obtain ⟨c, tokens, hc, -, hrun, hdenotes⟩ := h
  obtain ⟨c', tokens', hc', -, hrun', hdenotes'⟩ := h'
  obtain rfl := Except.ok.inj (hc.symm.trans hc')
  obtain rfl := Except.ok.inj (Prod.mk.inj (hrun.symm.trans hrun')).1
  exact (hdenotes k').mp ((hdenotes' k').mpr rfl)

theorem truthOf_eq {p : Predicate} {f : Fragment} {values : Array Value}
    (h : (fragment d.numbered params p).run.run #[] = (.ok f, values)) :
    truthOf d params db row p = leafTruth db row values.toList (p, f) := by
  rw [truthOf, h]

/-- What a predicate gives has the same truth wherever it is compiled. -/
theorem fragment_truth (p : Predicate) : Yields (fragment d.numbered params p) fun values f =>
    leafTruth db row values (p, f) = truthOf d params db row p ∧ Formed p.op f := by
  refine (fragment_yields fun f values hrun before later => ?_).and (fragment_formed d.numbered params p)
  rw [truthOf_eq hrun]
  have hterms : (raise before.length f).terms.map (fun t => t.truth db row (before ++ values.toList ++ later)) =
      f.terms.map fun t => t.truth db row values.toList := by
    show List.map _ (List.map _ _) = _
    rw [List.map_map]
    refine List.map_congr_left fun t ht => truth_raise fun n hn => ?_
    obtain ⟨hpos, s, -, hs⟩ := fragment_names hrun ht hn
    exact ⟨hpos, s.value, hs⟩
  exact congrArg (Truth.join _) hterms

/-- A compiled condition says in each row what its normal form does. -/
theorem compileTree_means {t : Tree Predicate} {c : Compiled} (h : compileTree d params t = .ok c) :
    Says d params db row t (t.normalize.weigh (truthOf d params db row)) := by
  obtain ⟨u, hmade, hleaves⟩ := compileTree_made (P := fun values p f =>
    leafTruth db row values (p, f) = truthOf d params db row p ∧ Formed p.op f) fragment_truth h
  have hnormal : u.Normal := by
    refine Tree.normal_of_map (f := Prod.fst) ?_
    rw [hmade.leaves]
    exact Tree.normalize_normal (compileTree_ok h).1
  have htruth : u.weigh (leafTruth db row c.params) = t.normalize.weigh (truthOf d params db row) := by
    rw [← hmade.leaves, Tree.weigh_map]
    exact Tree.weigh_congr fun leaf hleaf => (hleaves leaf hleaf).1
  refine ⟨c, _, h, hmade.text, hmade.run, fun k => ?_⟩
  rw [← htruth]
  exact layout_denotes hnormal (fun leaf hleaf => (hleaves leaf hleaf).2) k

/-- What a predicate says alone. -/
theorem says_leaf {p : Predicate} {f : Fragment} {values : Array Value}
    (h : (fragment d.numbered params p).run.run #[] = (.ok f, values)) :
    Says d params db row (.leaf p) (leafTruth db row values.toList (p, f)) := by
  rw [← truthOf_eq h]
  exact compileTree_means (compileTree_leaf h)

theorem Says.truthOf {p : Predicate} {k : Truth} (h : Says d params db row (.leaf p) k) :
    Sql.truthOf d params db row p = k := by
  have hcompiled := h
  obtain ⟨c, -, hc, -⟩ := hcompiled
  exact h.unique (compileTree_means hc)

/-- What each leaf says, and so what the condition says. -/
theorem says_of_leaves {α : Type} {t : Tree α} {f : α → Predicate} {value : α → Truth} (hleaf : t.leaves ≠ [])
    (h : ∀ a ∈ t.leaves, Says d params db row (.leaf (f a)) (value a)) :
    Says d params db row (t.map f) (t.normalize.weigh value) := by
  have hleaves : (t.map f).leaves = t.leaves.map f := Tree.leaves_map t
  obtain ⟨c, hc⟩ : ∃ c, compileTree d params (t.map f) = .ok c := by
    refine compileTree_of_leaves (by rwa [hleaves, ne_eq, List.map_eq_nil_iff]) fun p hp => ?_
    obtain ⟨a, ha, rfl⟩ := List.mem_map.mp (hleaves ▸ hp)
    obtain ⟨c, -, hc, -⟩ := h a ha
    exact ⟨c, hc⟩
  have hsays : Says d params db row (t.map f) _ := compileTree_means hc
  rw [Tree.normalize_map, Tree.weigh_map] at hsays
  rwa [Tree.weigh_congr fun a ha => (h a (Tree.leaves_normalize t ▸ ha)).truthOf] at hsays

end Conditions

end Sql

end DocQuery
