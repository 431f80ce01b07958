import DocQuery.Proofs.Failing
import DocQuery.Proofs.Running
import DocQuery.Proofs.Slots
import DocQuery.Sql.Settings

/-! Conditions by their leaves.

Whatever was bound before it, a predicate adds the same values to it or fails with the same error
(`Adds.of_writes`), and one computation after another adds what the two add, or has the error of the first
that fails (`Adds.both`). So a tree adds what its leaves do, and the groups do not show
(`treeTokens_adds`). `compileTree_leafwise`: of a condition that is compiled on its own, the values and the
error are those of its leaves compiled each on its own. -/
namespace DocQuery.Sql

variable {α β γ : Type}

/-! ### What a computation adds -/

/-- The values bound in the end, unless there is an error. -/
def ending : Except CompileError α × Array Value → Except CompileError (List Value)
  | (.ok _, bound) => .ok bound.toList
  | (.error e, _) => .error e

/-- Wherever it starts, the computation adds these values to those bound before, or fails with this error. -/
def Adds (x : Compile α) (added : Except CompileError (List Value)) : Prop :=
  ∀ bound : Array Value, ending (x.run.run bound) = added.map fun values => bound.toList ++ values

namespace Adds

variable {x : Compile α} {y : Compile β} {added more : Except CompileError (List Value)}

theorem pure (a : α) : Adds (Pure.pure a) (.ok []) :=
  fun bound => congrArg Except.ok (List.append_nil bound.toList).symm

theorem bind {k : α → Compile β} (hx : Adds x added) (hk : ∀ a, Adds (k a) more) :
    Adds (x >>= k) (do let values ← added; let others ← more; return values ++ others) := by
  intro bound
  have hfirst := hx bound
  cases hrun : x.run.run bound with
  | mk result middle =>
    rw [hrun] at hfirst
    cases result with
    | error e =>
      rw [run_bind_of_error hrun]
      obtain rfl := map_eq_error.mp hfirst.symm
      rfl
    | ok a =>
      rw [run_bind_of_ok hrun, hk a middle]
      cases added with
      | error e => exact nomatch hfirst
      | ok values =>
        have hmiddle : middle.toList = bound.toList ++ values := Except.ok.inj hfirst
        rw [hmiddle]
        cases more with
        | error e => rfl
        | ok others => exact congrArg Except.ok (List.append_assoc ..)

theorem map (hx : Adds x added) (f : α → β) : Adds (f <$> x) added := by
  have hbind := hx.bind fun a => pure (f a)
  rw [bind_pure_comp] at hbind
  intro bound
  rw [hbind bound]
  cases added with
  | error e => rfl
  | ok values => exact congrArg (fun others => Except.ok (bound.toList ++ others)) (List.append_nil values)

theorem both (hx : Adds x added) (hy : Adds y more) (f : α → β → γ) :
    Adds (do let a ← x; let b ← y; return f a b) (do let values ← added; let others ← more; return values ++ others) := by
  have hboth := hx.bind fun a => hy.map (f a)
  simp only [map_eq_pure_bind] at hboth ⊢
  exact hboth

/-- What writes the places of its slots looks at the values before it only to count them. -/
theorem of_writes [Placed α] {slots : List Slot} (h : Writes x slots) : Adds x (ending (x.run.run #[])) := by
  obtain ⟨result, values, hrun, -⟩ := h
  intro bound
  rw [hrun, hrun, Array.empty_append]
  cases result with
  | error e => rfl
  | ok a => exact congrArg Except.ok Array.toList_append

end Adds

/-! ### Trees -/

section Trees

variable (numbered : Bool) (params : ParamSet)

/-- What a predicate adds. -/
def addedBy (p : Predicate) : Except CompileError (List Value) :=
  ending ((fragment numbered params p).run.run #[])

/-- What predicates add, one after the other. -/
def addedByAll (ps : List Predicate) : Except CompileError (List Value) :=
  (ps.mapM (addedBy numbered params)).map List.flatten

variable {numbered params}

theorem addedByAll_singleton (p : Predicate) : addedByAll numbered params [p] = addedBy numbered params p := by
  rw [addedByAll, List.mapM_cons, List.mapM_nil]
  cases addedBy numbered params p with
  | error e => rfl
  | ok values => exact congrArg Except.ok (List.append_nil values)

theorem fragment_adds (p : Predicate) : Adds (fragment numbered params p) (addedByAll numbered params [p]) := by
  rw [addedByAll_singleton]
  exact .of_writes (fragment_writes p)

/-- A tree adds what its leaves do. -/
theorem treeTokens_adds (inside : Option Joiner) (t : Tree Predicate) :
    Adds (treeTokens numbered params inside t) (addedByAll numbered params t.leaves) := by
  induction t generalizing inside with
  | leaf p => exact (fragment_adds p).map _
  | group t ih => exact (ih none).map _
  | node j members ih =>
    have hmembers : Adds (memberTokens numbered params j members)
        (addedByAll numbered params (members.flatMap Tree.leaves)) := by
      induction members with
      | nil => exact .pure _
      | cons t rest ihrest =>
        have hrest := ihrest fun u hu => ih u (List.mem_cons_of_mem t hu)
        rw [List.flatMap_cons, addedByAll, flatten_mapM_append]
        exact (ih t (List.mem_cons_self ..) (some j)).both hrest _
    rw [Tree.leaves_node]
    exact hmembers.map _

end Trees

/-! ### Conditions -/

/-- A compiled condition has a leaf, and its text and values are those of its tokens. -/
theorem compileTree_ok {d : Dialect} {params : ParamSet} {t : Tree Predicate} {c : Compiled}
    (h : compileTree d params t = .ok c) :
    t.leaves ≠ [] ∧ ∃ tokens, c.text = render d tokens ∧
      (condition d.numbered params t).run.run #[] = (.ok tokens, c.params.toArray) := by
  unfold compileTree at h
  split at h
  · next tokens bound hrun =>
    obtain rfl := Except.ok.inj h
    refine ⟨fun hleaves => ?_, tokens, rfl, hrun⟩
    have hempty : t.normalize.isEmpty = true := by
      rw [Tree.isEmpty_normalize, hleaves]
      rfl
    simp only [condition, hempty, if_true] at hrun
    exact nomatch (Prod.mk.inj hrun).1
  · exact nomatch h

/-- A condition with leaves is compiled as its normal form. -/
theorem condition_of_leaves {t : Tree Predicate} (hleaf : t.leaves ≠ []) (numbered : Bool) (params : ParamSet) :
    condition numbered params t = treeTokens numbered params none t.normalize := by
  simp only [condition, (Tree.normalize_normal hleaf).not_isEmpty, Bool.false_eq_true, if_false]

/-- A predicate alone is compiled to its terms. -/
theorem compileTree_leaf {d : Dialect} {params : ParamSet} {p : Predicate} {f : Fragment} {values : Array Value}
    (h : (fragment d.numbered params p).run.run #[] = (.ok f, values)) :
    compileTree d params (.leaf p) = .ok ⟨render d (f.tokens none), values.toList⟩ := by
  have hrun : (condition d.numbered params (.leaf p)).run.run #[] = (.ok (f.tokens none), values) := by
    rw [condition_of_leaves (t := .leaf p) (List.cons_ne_nil p []), Tree.normalize, treeTokens, ExceptT.run_map,
      StateT.run_map, h]
    rfl
  rw [compileTree, hrun]

theorem compileTree_params (d : Dialect) (params : ParamSet) (t : Tree Predicate) :
    (compileTree d params t).map Compiled.params = ending ((condition d.numbered params t).run.run #[]) := by
  unfold compileTree
  generalize (condition d.numbered params t).run.run #[] = outcome
  obtain ⟨result, bound⟩ := outcome
  cases result <;> rfl

/-- A condition binds what its leaves do, or has the error of the first that fails. -/
theorem compileTree_adds {t : Tree Predicate} (hleaf : t.leaves ≠ []) (d : Dialect) (params : ParamSet) :
    (compileTree d params t).map Compiled.params = addedByAll d.numbered params t.leaves := by
  rw [compileTree_params, condition_of_leaves hleaf, treeTokens_adds none t.normalize #[], Tree.leaves_normalize]
  cases addedByAll d.numbered params t.leaves <;> rfl

/-- The values of a condition are those of its leaves compiled each on its own. -/
theorem compileTree_leaves {t : Tree Predicate} (hleaf : t.leaves ≠ []) (d : Dialect) (params : ParamSet) :
    (compileTree d params t).map Compiled.params =
      (t.leaves.mapM fun p => compileTree d params (.leaf p)).map (List.flatMap Compiled.params) := by
  have halone : addedBy d.numbered params = fun p => (compileTree d params (.leaf p)).map Compiled.params := by
    funext p
    rw [compileTree_adds (t := .leaf p) (List.cons_ne_nil _ _), Tree.leaves, addedByAll_singleton]
  rw [compileTree_adds hleaf, addedByAll, halone, mapM_map_except, map_map_except]
  exact congrFun (congrArg Except.map (funext fun parts => List.flatMap_def.symm)) _

/-- Each leaf of a condition that compiles does on its own, and the values are theirs. -/
theorem compileTree_parts {d : Dialect} {params : ParamSet} {t : Tree Predicate} {c : Compiled}
    (h : compileTree d params t = .ok c) :
    ∃ parts, List.Forall₂ (fun p part => compileTree d params (.leaf p) = .ok part) t.leaves parts ∧
      c.params = parts.flatMap Compiled.params := by
  have hleaves := compileTree_leaves (compileTree_ok h).1 d params
  rw [h] at hleaves
  cases hparts : t.leaves.mapM fun p => compileTree d params (.leaf p) with
  | error e => rw [hparts] at hleaves; exact nomatch hleaves
  | ok parts =>
    rw [hparts] at hleaves
    exact ⟨parts, mapM_ok hparts, Except.ok.inj hleaves⟩

/-- A condition compiles if its leaves do. -/
theorem compileTree_of_leaves {d : Dialect} {params : ParamSet} {t : Tree Predicate} (hleaf : t.leaves ≠ [])
    (h : ∀ p ∈ t.leaves, ∃ c, compileTree d params (.leaf p) = .ok c) : ∃ c, compileTree d params t = .ok c := by
  cases hc : compileTree d params t with
  | ok c => exact ⟨c, rfl⟩
  | error e =>
    have hleaves := compileTree_leaves hleaf d params
    rw [hc] at hleaves
    obtain ⟨p, hp, herror⟩ := mapM_error (map_eq_error.mp hleaves.symm)
    obtain ⟨c, hok⟩ := h p hp
    exact nomatch hok.symm.trans herror

/-- **Compiling is decided leaf by leaf.** A condition fails just when one of its leaves does on its own,
with the error of the first that does; otherwise its values are those of its leaves compiled each on its
own, in their order. So conditions with the same leaves bind the same values or have the same error,
however the leaves are grouped. -/
theorem compileTree_leafwise (d : Dialect) (params : ParamSet) {t : Tree Predicate} (hleaf : t.leaves ≠ []) :
    (∀ e, compileTree d params t = .error e ↔
      ∃ before p after, t.leaves = before ++ p :: after ∧
        (∀ q ∈ before, (compileTree d params (.leaf q)).isOk = true) ∧ compileTree d params (.leaf p) = .error e) ∧
    (∀ c, compileTree d params t = .ok c →
      ∃ parts, List.Forall₂ (fun p part => compileTree d params (.leaf p) = .ok part) t.leaves parts ∧
        c.params = parts.flatMap Compiled.params) ∧
    (∀ u : Tree Predicate, u.leaves = t.leaves →
      (compileTree d params u).map Compiled.params = (compileTree d params t).map Compiled.params) := by
  have hleaves := compileTree_leaves hleaf d params
  refine ⟨fun e => ?_, fun c hc => ?_, fun u hu => ?_⟩
  · rw [← map_eq_error, hleaves, map_eq_error, mapM_error_iff]
  · rw [hc] at hleaves
    cases hparts : t.leaves.mapM fun p => compileTree d params (.leaf p) with
    | error e => rw [hparts] at hleaves; exact nomatch hleaves
    | ok parts =>
      rw [hparts] at hleaves
      exact ⟨parts, mapM_ok hparts, Except.ok.inj hleaves⟩
  · rw [compileTree_leaves (by rw [hu]; exact hleaf), hu, hleaves]

/-! A mask, which is bound twice, beside a range, and a parameter without value before a null. -/

def freight : Document where
  path := "rail.Freight"
  name := "Freight"
  storage := "freights"
  fields := [{ name := "weight", storage := "Weight", kind := .int }]

def weighed (op : Operator) (operand : Operand) : Tree Predicate :=
  .leaf
    { qualifier := ""
      field := ⟨freight, [⟨freight, { name := "weight", storage := "Weight", kind := .int }⟩], List.cons_ne_nil _ _⟩
      op
      operand }

def positional : Dialect :=
  Settings.dialect { placeholder := .question }

def maskOrRange : Tree Predicate :=
  .node .or [weighed .bitsAnd (.const (.int 6)), .group (.node .and [weighed .isNotNull .none,
    weighed .between (.const (.list [.int 1, .int 9]))])]

def unsetBeforeNull : Tree Predicate :=
  .node .and [weighed .less (.const (.int 5)), .node .or [weighed .equal (.param "limit"),
    weighed .less (.const .null)]]

theorem compileTree_leafwise_freight :
    (maskOrRange.leaves ≠ [] ∧ ∃ parts : List Compiled,
      List.Forall₂ (fun p part => compileTree positional {} (.leaf p) = .ok part) maskOrRange.leaves parts ∧
        [.int 6, .int 6, .int 1, .int 9] = parts.flatMap Compiled.params) ∧
    (unsetBeforeNull.leaves ≠ [] ∧ ∃ before p after, unsetBeforeNull.leaves = before ++ p :: after ∧
      (∀ q ∈ before, (compileTree positional {} (.leaf q)).isOk = true) ∧
      compileTree positional {} (.leaf p) = .error (.unsetParameter "limit")) := by
  have hwhole : maskOrRange.leaves ≠ [] := List.cons_ne_nil _ _
  have hstops : unsetBeforeNull.leaves ≠ [] := List.cons_ne_nil _ _
  have hcompiled : compileTree positional {} maskOrRange =
      .ok ⟨"(\"Weight\" & ?) = ? OR (\"Weight\" IS NOT NULL AND \"Weight\" BETWEEN ? AND ?)",
        [.int 6, .int 6, .int 1, .int 9]⟩ := rfl
  exact ⟨⟨hwhole, (compileTree_leafwise positional {} hwhole).2.1 _ hcompiled⟩, hstops,
    ((compileTree_leafwise positional {} hstops).1 _).mp rfl⟩

end DocQuery.Sql
