import DocQuery.Proofs.Counting
import DocQuery.Proofs.FlatRoundTrip
import DocQuery.Sql.Compile

/-! Conditions in flat form.

The flat form of a condition gives back its normal form without implied groups. Whoever uses a
condition normalizes it first and does not see an implied group: compiling writes parentheses
around the disjunction anyway (`treeTokens_withoutImplied`), and the disjuncts do not depend on
groups at all (`expand_withoutImplied`). So a condition and its flat form can stand for each
other (`flat_form_agrees`). -/
namespace DocQuery

open DocQuery.Symbol (parenthesized joined)

/-! ### Disjuncts -/

namespace Tree

variable {α : Type}

theorem expandEvery_eq_foldr (members : List (Tree α)) :
    expandEvery members =
      (members.map expand).foldr (fun cs others => cs.flatMap fun c => others.map fun d => c ++ d) [[]] := by
  induction members with
  | nil => rfl
  | cons t rest ih =>
    rw [expandEvery, ih]
    rfl

/-- What passes over every group does not see the implied ones. -/
theorem transparent_withoutImplied {β : Type} {g : Tree α → β} (hgroup : ∀ t, g (group t) = g t)
    (hnode : ∀ j ts us, ts.map g = us.map g → g (node j ts) = g (node j us)) (t : Tree α) :
    g t.withoutImplied = g t := by
  refine invariant_withoutImplied g (fun _ => g) ?_ hnode (fun _ _ h => h) ?_ t
  · intro t u h
    rw [hgroup, h, hgroup]
  · intro t
    rcases dropImplied_cases t with ⟨members, rfl, hdrop⟩ | ⟨-, hdrop⟩
    · exact (congrArg g hdrop).trans (hgroup _).symm
    · exact congrArg g hdrop

theorem expand_withoutImplied (t : Tree α) : t.withoutImplied.expand = t.expand := by
  refine transparent_withoutImplied (fun t => rfl) ?_ t
  intro j ts us h
  cases j with
  | and => rw [expand, expand, expandEvery_eq_foldr, expandEvery_eq_foldr, h]
  | or => rw [expand, expand, expandSome_eq_flatMap, expandSome_eq_flatMap, List.flatMap_def, List.flatMap_def, h]

theorem disjunctCount_withoutImplied (t : Tree α) : t.withoutImplied.disjunctCount = t.disjunctCount := by
  rw [disjunctCount_eq_min, disjunctCount_eq_min, ← length_expand, ← length_expand, expand_withoutImplied]

/-- The disjuncts, and whether there are too many, depend on the normal form without implied
groups. -/
theorem disjuncts_withoutImplied {t : Tree α} (h : t.normalize.Normal) (limit : Nat) :
    t.normalize.withoutImplied.disjuncts limit = t.disjuncts limit := by
  have hnormal := h.withoutImplied
  simp only [disjuncts, normalize_of_normal hnormal, hnormal.not_isEmpty, h.not_isEmpty,
    disjunctCount_withoutImplied, expand_withoutImplied]

end Tree

/-! ### Compiled text -/

namespace Sql

variable {numbered : Bool} {params : ParamSet}

/-- What the tokens of a member of a group joined by `j` come to, with the parentheses that it
needs there. -/
def memberTokensOf (numbered : Bool) (params : ParamSet) (j : Joiner) (t : Tree Predicate) :
    Compile (List Token) :=
  (fun tokens => if Flat.needsParens j t then parenthesized tokens else tokens) <$>
    treeTokens numbered params (some j) t

theorem memberTokens_eq_mapM (j : Joiner) (members : List (Tree Predicate)) :
    memberTokens numbered params j members = (members.map (memberTokensOf numbered params j)).mapM id := by
  induction members with
  | nil => rfl
  | cons t rest ih =>
    rw [memberTokens, ih, List.map_cons, List.mapM_cons, id_eq, memberTokensOf]
    simp only [bind_map_left]

/-- A group around a disjunction comes to the parentheses that a conjunction puts there. -/
theorem memberTokensOf_dropImplied (t : Tree Predicate) :
    memberTokensOf numbered params .and t.dropImplied = memberTokensOf numbered params .and t := by
  rcases Tree.dropImplied_cases t with ⟨members, rfl, hdrop⟩ | ⟨-, hdrop⟩
  · rw [hdrop, memberTokensOf, memberTokensOf, treeTokens, treeTokens, treeTokens, Functor.map_map,
      Functor.map_map, Functor.map_map]
    rfl
  · rw [hdrop]

theorem treeTokens_withoutImplied (t : Tree Predicate) (inside : Option Joiner) :
    treeTokens numbered params inside t.withoutImplied = treeTokens numbered params inside t := by
  suffices h : (fun inside => treeTokens numbered params inside t.withoutImplied) =
      fun inside => treeTokens numbered params inside t from congrFun h inside
  refine Tree.invariant_withoutImplied (fun t inside => treeTokens numbered params inside t)
    (memberTokensOf numbered params) ?_ ?_ ?_ memberTokensOf_dropImplied t
  · intro t u h
    funext inside
    rw [treeTokens, congrFun h none, treeTokens]
  · intro j ts us h
    funext inside
    rw [treeTokens, memberTokens_eq_mapM, h, treeTokens, memberTokens_eq_mapM]
  · intro j t h
    rw [memberTokensOf, Tree.needsParens_withoutImplied, congrFun h (some j), memberTokensOf]

/-- The text, the values and the error depend on the normal form without implied groups. -/
theorem compileTree_withoutImplied {t : Tree Predicate} (h : t.normalize.Normal) (d : Dialect) :
    compileTree d params t.normalize.withoutImplied = compileTree d params t := by
  have hnormal := h.withoutImplied
  have hcondition : condition d.numbered params t.normalize.withoutImplied =
      condition d.numbered params t := by
    simp only [condition, Tree.normalize_of_normal hnormal, hnormal.not_isEmpty, h.not_isEmpty,
      treeTokens_withoutImplied]
  rw [compileTree, hcondition, compileTree]

end Sql

/-! ### Both forms -/

theorem Flat.decode_encode_leaves {α : Type} {t : Tree α} (h : t.leaves ≠ []) :
    decode (encode t) = .ok (some t.normalize.withoutImplied) := by
  have hnormal := Tree.normalize_normal h
  have hencode : encode t = terms false t.normalize := by
    simp [encode, hnormal.not_isEmpty]
  rw [hencode, decode_terms hnormal]

/-- **A condition and its flat form can stand for each other.** Compiled they give the same text
and the same values or fail with the same error, and they have the same disjuncts or too many. -/
theorem flat_form_agrees {t : Tree Predicate} (h : t.leaves ≠ []) (d : Sql.Dialect) (params : ParamSet)
    (limit : Nat) :
    Sql.compileFlat d params (Flat.encode t) = some <$> Sql.compileTree d params t ∧
      Flat.disjuncts (Flat.encode t) limit = t.disjuncts limit := by
  have hnormal := Tree.normalize_normal h
  have hdecode := Flat.decode_encode_leaves h
  constructor
  · rw [Sql.compileFlat, hdecode]
    exact congrArg (fun x => some <$> x) (Sql.compileTree_withoutImplied hnormal d)
  · rw [Flat.disjuncts, hdecode]
    exact Tree.disjuncts_withoutImplied hnormal limit

/-! An implied group, which the flat form drops, beside a group that it keeps. -/

def crate : Document where
  path := "depot.Crate"
  name := "Crate"
  storage := "crates"
  fields := [{ name := "width", storage := "W", kind := .int }]

def widthIs (n : Int64) : Tree Predicate :=
  .leaf
    { qualifier := ""
      field := ⟨crate, [⟨crate, { name := "width", storage := "W", kind := .int }⟩], List.cons_ne_nil _ _⟩
      op := .equal
      operand := .const (.int n) }

def widths : Tree Predicate :=
  .node .and [.group (.node .or [widthIs 1, widthIs 2]), .group (.node .and [widthIs 3, widthIs 4])]

theorem flat_form_agrees_widths :
    widths.leaves ≠ [] ∧
      Flat.decode (Flat.encode widths) = .ok (some
        (.node .and [.node .or [widthIs 1, widthIs 2], .group (.node .and [widthIs 3, widthIs 4])])) ∧
      Sql.compileTree .postgres {} widths =
        .ok ⟨"(\"W\" = $1 OR \"W\" = $2) AND (\"W\" = $3 AND \"W\" = $4)", [1, 2, 3, 4].map .int⟩ ∧
      Sql.compileFlat .postgres {} (Flat.encode widths) = some <$> Sql.compileTree .postgres {} widths ∧
      Flat.disjuncts (Flat.encode widths) 1 = widths.disjuncts 1 :=
  have hleaves : widths.leaves ≠ [] := List.cons_ne_nil _ _
  ⟨hleaves, rfl, rfl, flat_form_agrees hleaves .postgres {} 1⟩

end DocQuery
