import DocQuery.Proofs.Disjuncts
import DocQuery.Proofs.Reading

/-! Conditions of three truth values.

In a database a condition holds, fails or is unknown. `Truth` has the three values with "and", "or" and
"not" as SQL has them, `Tree.weigh` is the truth of a tree, and `Denotes` is the grammar of `Reads` with
these truths. Whether a truth is "yes", and whether it is not "no", goes through "and" and "or", and the
two together tell which truth it is; so what reads with two truth values denotes with three
(`denotes_iff`). -/
namespace DocQuery

inductive Truth where
  | no
  | unknown
  | yes
  deriving DecidableEq, Repr

namespace Truth

def ofBool (b : Bool) : Truth :=
  if b then yes else no

def not : Truth → Truth
  | no => yes
  | unknown => unknown
  | yes => no

def and : Truth → Truth → Truth
  | yes, b => b
  | unknown, no => no
  | unknown, _ => unknown
  | no, _ => no

def or : Truth → Truth → Truth
  | no, b => b
  | unknown, yes => yes
  | unknown, _ => unknown
  | yes, _ => yes

/-- All of them, or one of them. -/
def join (j : Joiner) : List Truth → Truth
  | [] =>
    match j with
    | .and => yes
    | .or => no
  | a :: rest =>
    match j with
    | .and => a.and (join j rest)
    | .or => a.or (join j rest)

theorem not_or (a b : Truth) : (a.or b).not = a.not.and b.not := by
  cases a <;> cases b <;> rfl

/-- A disjunction fails as the conjunction of the opposites holds. -/
theorem not_join_or (truths : List Truth) : (join .or truths).not = join .and (truths.map not) := by
  induction truths with
  | nil => rfl
  | cons a rest ih => rw [join, not_or, ih, List.map_cons, join]

theorem join_singleton (j : Joiner) (k : Truth) : join j [k] = k := by
  cases j <;> cases k <;> rfl

theorem join_or_ofBool {α : Type} (f : α → Bool) (as : List α) :
    join .or (as.map fun a => ofBool (f a)) = ofBool (as.any f) := by
  induction as with
  | nil => rfl
  | cons a rest ih => rw [List.map_cons, join, ih, List.any_cons]; cases f a <;> cases rest.any f <;> rfl

theorem join_or_unknown {α : Type} {as : List α} (h : as ≠ []) : join .or (as.map fun _ => unknown) = unknown := by
  induction as with
  | nil => exact absurd rfl h
  | cons a rest ih =>
    cases rest with
    | nil => rfl
    | cons b rest => rw [List.map_cons, join, ih (List.cons_ne_nil b rest)]; rfl

/-! ### Thresholds -/

def isYes : Truth → Bool
  | yes => true
  | _ => false

def mayBe : Truth → Bool
  | no => false
  | _ => true

/-- It goes through "and" and "or". -/
structure Threshold (f : Truth → Bool) : Prop where
  yes : f yes = true
  no : f no = false
  and : ∀ a b, f (a.and b) = (f a && f b)
  or : ∀ a b, f (a.or b) = (f a || f b)

theorem isYes_threshold : Threshold isYes := by
  refine ⟨rfl, rfl, fun a b => ?_, fun a b => ?_⟩ <;> cases a <;> cases b <;> rfl

theorem mayBe_threshold : Threshold mayBe := by
  refine ⟨rfl, rfl, fun a b => ?_, fun a b => ?_⟩ <;> cases a <;> cases b <;> rfl

/-- Truths that no threshold tells apart are the same. -/
theorem eq_of_thresholds {a b : Truth} (h : ∀ f, Threshold f → f a = f b) : a = b := by
  have hyes := h isYes isYes_threshold
  have hmay := h mayBe mayBe_threshold
  revert hyes hmay
  cases a <;> cases b <;> decide

variable {f : Truth → Bool}

theorem Threshold.join_and (hf : Threshold f) (truths : List Truth) : f (join .and truths) = (truths.map f).all id := by
  induction truths with
  | nil => exact hf.yes
  | cons a rest ih => rw [join, hf.and, ih, List.map_cons, List.all_cons, id]

theorem Threshold.join_or (hf : Threshold f) (truths : List Truth) : f (join .or truths) = (truths.map f).any id := by
  induction truths with
  | nil => exact hf.no
  | cons a rest ih => rw [join, hf.or, ih, List.map_cons, List.any_cons, id]

end Truth

/-! ### Trees -/

namespace Tree

variable {α β : Type}

mutual

/-- The truth of the tree when `truth` gives that of its leaves. -/
def weigh (truth : α → Truth) : Tree α → Truth
  | leaf a => truth a
  | node j members => Truth.join j (weighAll truth members)
  | group t => weigh truth t

def weighAll (truth : α → Truth) : List (Tree α) → List Truth
  | [] => []
  | t :: rest => weigh truth t :: weighAll truth rest

end

theorem weigh_node (truth : α → Truth) (j : Joiner) (members : List (Tree α)) :
    (node j members).weigh truth = Truth.join j (members.map (weigh truth)) := by
  have hall : weighAll truth members = members.map (weigh truth) := by
    induction members with
    | nil => rfl
    | cons t rest ih => rw [weighAll, ih, List.map_cons]
  rw [weigh, hall]

/-- A threshold sees a tree as the tree of what it sees in the leaves. -/
theorem threshold_weigh {f : Truth → Bool} (hf : Truth.Threshold f) (truth : α → Truth) (t : Tree α) :
    f (t.weigh truth) = t.eval fun a => f (truth a) := by
  induction t with
  | leaf a => rfl
  | group t ih => exact ih
  | node j members ih =>
    have hmembers : (members.map (weigh truth)).map f = members.map (eval fun a => f (truth a)) := by
      rw [List.map_map]
      exact List.map_congr_left ih
    rw [weigh_node]
    cases j with
    | and => rw [hf.join_and, hmembers, eval_and, List.all_map, Function.id_comp]
    | or => rw [hf.join_or, hmembers, eval_or, List.any_map, Function.id_comp]

/-- Normalizing keeps the truth, if no group is dropped that has no members. -/
theorem weigh_normalize {t : Tree α} (h : t.Populated) (truth : α → Truth) :
    t.normalize.weigh truth = t.weigh truth :=
  Truth.eq_of_thresholds fun f hf => by rw [threshold_weigh hf, threshold_weigh hf, eval_normalize h]

end Tree

/-! ### The grammar -/

namespace Symbol

variable {α : Type} {truth : α → Truth}

/-- Under `truth`, the symbols are a condition of that level and its truth is the last argument;
"and" binds tighter than "or". -/
inductive Denotes (truth : α → Truth) : Level → List (Symbol α) → Truth → Prop where
  | atom (a : α) : Denotes truth .operand [atom a] (truth a)
  | parens {ts b} : Denotes truth .disjunction ts b → Denotes truth .operand (parenthesized ts) b
  | ofOperand {ts b} : Denotes truth .operand ts b → Denotes truth .conjunction ts b
  | and {ts us b c} : Denotes truth .conjunction ts b → Denotes truth .operand us c →
      Denotes truth .conjunction (ts ++ joiner .and :: us) (b.and c)
  | ofConjunction {ts b} : Denotes truth .conjunction ts b → Denotes truth .disjunction ts b
  | or {ts us b c} : Denotes truth .disjunction ts b → Denotes truth .conjunction us c →
      Denotes truth .disjunction (ts ++ joiner .or :: us) (b.or c)

/-- A threshold reads what it sees in the atoms. -/
theorem Denotes.reads {f : Truth → Bool} (hf : Truth.Threshold f) {level : Level} {ts : List (Symbol α)}
    {k : Truth} (h : Denotes truth level ts k) : Reads (fun a => f (truth a)) level ts (f k) := by
  induction h with
  | atom a => exact .atom a
  | parens _ ih => exact .parens ih
  | ofOperand _ ih => exact .ofOperand ih
  | and _ _ ihts ihus => rw [hf.and]; exact .and ihts ihus
  | ofConjunction _ ih => exact .ofConjunction ih
  | or _ _ ihts ihus => rw [hf.or]; exact .or ihts ihus

/-- What can be read denotes something. -/
theorem Reads.denotes {two : α → Bool} {level : Level} {ts : List (Symbol α)} {b : Bool}
    (h : Reads two level ts b) (truth : α → Truth) : ∃ k, Denotes truth level ts k := by
  induction h with
  | atom a => exact ⟨_, .atom a⟩
  | parens _ ih => exact ih.imp fun _ => .parens
  | ofOperand _ ih => exact ih.imp fun _ => .ofOperand
  | and _ _ ihts ihus =>
    obtain ⟨b, hb⟩ := ihts
    obtain ⟨c, hc⟩ := ihus
    exact ⟨_, .and hb hc⟩
  | ofConjunction _ ih => exact ih.imp fun _ => .ofConjunction
  | or _ _ ihts ihus =>
    obtain ⟨b, hb⟩ := ihts
    obtain ⟨c, hc⟩ := ihus
    exact ⟨_, .or hb hc⟩

/-- Symbols that every threshold reads as it sees `k` denote `k` and no other truth. -/
theorem denotes_iff {ts : List (Symbol α)} {k : Truth}
    (h : ∀ f, Truth.Threshold f → Reads (fun a => f (truth a)) .disjunction ts (f k)) (k' : Truth) :
    Denotes truth .disjunction ts k' ↔ k' = k := by
  have honly : ∀ k', Denotes truth .disjunction ts k' → k' = k := fun k' hk' =>
    Truth.eq_of_thresholds fun f hf => (hk'.reads hf).unique (h f hf)
  refine ⟨honly k', ?_⟩
  rintro rfl
  obtain ⟨k, hk⟩ := (h _ Truth.isYes_threshold).denotes truth
  exact honly k hk ▸ hk

end Symbol

end DocQuery
