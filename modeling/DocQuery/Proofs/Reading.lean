import DocQuery.Condition.Flat
import DocQuery.Proofs.NormalForm

/-! Reading a condition that is written out.

`Reads` is the grammar of conditions in which "and" binds tighter than "or", with the
truth of what is read. `Reads.unique`: what is read has one truth, so the grammar is
unambiguous. `layout` writes a tree out with the parentheses that the flat form and the
compiled form both put around groups; `layout_reads`: what is written reads as the tree's
own truth, whatever the leaves are written as. -/
namespace DocQuery

namespace Symbol

variable {α : Type} {truth : α → Bool}

/-! ### The grammar -/

inductive Level where
  | disjunction
  | conjunction
  | operand
  deriving DecidableEq

/-- Under `truth`, the symbols are a condition of that level and its truth is the last
argument. -/
inductive Reads (truth : α → Bool) : Level → List (Symbol α) → Bool → Prop where
  | atom (a : α) : Reads truth .operand [atom a] (truth a)
  | parens {ts b} : Reads truth .disjunction ts b → Reads truth .operand (parenthesized ts) b
  | ofOperand {ts b} : Reads truth .operand ts b → Reads truth .conjunction ts b
  | and {ts us b c} : Reads truth .conjunction ts b → Reads truth .operand us c →
      Reads truth .conjunction (ts ++ joiner .and :: us) (b && c)
  | ofConjunction {ts b} : Reads truth .conjunction ts b → Reads truth .disjunction ts b
  | or {ts us b c} : Reads truth .disjunction ts b → Reads truth .conjunction us c →
      Reads truth .disjunction (ts ++ joiner .or :: us) (b || c)

/-! ### One truth

A reader goes through the symbols once, with a frame for each parenthesis that is open.
It finds whatever truth the grammar gives. -/

/-- The part of a disjunction that has been read: whether one of the disjuncts before the
last holds, and whether all operands of the last one do. -/
structure Frame where
  before : Bool := false
  every : Bool := true

def Frame.holds (f : Frame) : Bool := f.before || f.every

structure Reader where
  frame : Frame := {}
  outer : List Frame := []
  /-- The last symbol ended an operand. -/
  after : Bool := false

def Reader.step (truth : α → Bool) (r : Reader) : Symbol α → Option Reader
  | .openParen => if r.after then none else some ⟨{}, r.frame :: r.outer, false⟩
  | .atom a =>
    if r.after then none
    else some ⟨{ r.frame with every := r.frame.every && truth a }, r.outer, true⟩
  | .joiner .and => if r.after then some { r with after := false } else none
  | .joiner .or =>
    if r.after then some ⟨{ before := r.frame.holds }, r.outer, false⟩ else none
  | .closeParen =>
    match r.after, r.outer with
    | true, f :: outer =>
      some ⟨{ f with every := f.every && r.frame.holds }, outer, true⟩
    | _, _ => none

def Reader.run (truth : α → Bool) (r : Reader) : List (Symbol α) → Option Reader
  | [] => some r
  | s :: rest => (r.step truth s).bind fun r => r.run truth rest

theorem Reader.run_append (r : Reader) (ts us : List (Symbol α)) :
    r.run truth (ts ++ us) = (r.run truth ts).bind fun r => r.run truth us := by
  induction ts generalizing r with
  | nil => rfl
  | cons s rest ih =>
    simp only [List.cons_append, run, Option.bind_assoc]
    cases r.step truth s with
    | none => rfl
    | some r => exact ih r

/-- What the reader makes of symbols of each level. An operand or a conjunction extends the
disjunct under way; a disjunction is what a frame holds from its first symbol on. -/
def Reader.Finds (truth : α → Bool) (ts : List (Symbol α)) (b : Bool) : Level → Prop
  | .disjunction => ∀ outer, ∃ f : Frame, f.holds = b ∧
      Reader.run truth ⟨{}, outer, false⟩ ts = some ⟨f, outer, true⟩
  | _ => ∀ f outer, Reader.run truth ⟨f, outer, false⟩ ts =
      some ⟨{ f with every := f.every && b }, outer, true⟩

theorem Reader.finds_of_reads {level : Level} {ts : List (Symbol α)} {b : Bool}
    (h : Reads truth level ts b) : Reader.Finds truth ts b level := by
  induction h with
  | atom a => exact fun f outer => rfl
  | parens _ ih =>
    intro f outer
    obtain ⟨g, hg, hrun⟩ := ih (f :: outer)
    simp only [parenthesized, run, step, Bool.false_eq_true, if_false, Option.bind_some, run_append, hrun, hg]
  | ofOperand _ ih => exact ih
  | and _ _ ihts ihus =>
    intro f outer
    simp only [run_append, ihts f outer, Option.bind_some, run, step, if_true, ihus _ _, Bool.and_assoc]
  | ofConjunction _ ih =>
    intro outer
    exact ⟨_, by simp [Frame.holds], ih {} outer⟩
  | @or ts us b c _ _ ihts ihus =>
    intro outer
    obtain ⟨f, hf, hrun⟩ := ihts outer
    refine ⟨{ before := f.holds, every := true && c }, ?_, ?_⟩
    · rw [Frame.holds, hf, Bool.true_and]
    · simp only [run_append, hrun, Option.bind_some, run, step, if_true, ihus _ _]

/-- Symbols that read as a condition have one truth. -/
theorem Reads.unique {ts : List (Symbol α)} {b c : Bool} (hb : Reads truth .disjunction ts b)
    (hc : Reads truth .disjunction ts c) : b = c := by
  obtain ⟨f, hf, hrunb⟩ := Reader.finds_of_reads hb []
  obtain ⟨g, hg, hrunc⟩ := Reader.finds_of_reads hc []
  have he := Option.some.inj (hrunb.symm.trans hrunc)
  rw [← hf, ← hg, (Reader.mk.inj he).1]

theorem Reads.iff_eq {ts : List (Symbol α)} {b : Bool} (h : Reads truth .disjunction ts b) (c : Bool) :
    Reads truth .disjunction ts c ↔ c = b :=
  ⟨fun hc => hc.unique h, fun e => e ▸ h⟩

/-! ### Levels -/

/-- The level of what stands between the joiners of a group. -/
def levelIn : Option Joiner → Level
  | some .and => .conjunction
  | _ => .disjunction

theorem Reads.widen {level : Level} {ts : List (Symbol α)} {b : Bool} (h : Reads truth level ts b) :
    Reads truth .disjunction ts b := by
  cases level with
  | disjunction => exact h
  | conjunction => exact .ofConjunction h
  | operand => exact .ofConjunction (.ofOperand h)

theorem Reads.ofOperandIn {ts : List (Symbol α)} {b : Bool} (h : Reads truth .operand ts b) :
    (inside : Option Joiner) → Reads truth (levelIn inside) ts b
  | none => h.widen
  | some .or => h.widen
  | some .and => .ofOperand h

theorem Reads.ofConjunctionIn {ts : List (Symbol α)} {b : Bool} (h : Reads truth .conjunction ts b) :
    (inside : Option Joiner) → Reads truth (levelIn inside) ts b
  | none => h.widen
  | some .or => h.widen
  | some .and => h

theorem Reads.andConjunction {ts us : List (Symbol α)} {b c : Bool} (h : Reads truth .conjunction ts b)
    (hus : Reads truth .conjunction us c) :
    Reads truth .conjunction (ts ++ joiner .and :: us) (b && c) := by
  generalize hl : Level.conjunction = level at hus
  induction hus with
  | ofOperand hus _ => exact .and h hus
  | and _ hvs ih _ =>
    rw [← List.cons_append, ← List.append_assoc, ← Bool.and_assoc]
    exact .and (ih hl) hvs
  | _ => cases hl

theorem Reads.orDisjunction {ts us : List (Symbol α)} {b c : Bool} (h : Reads truth .disjunction ts b)
    (hus : Reads truth .disjunction us c) :
    Reads truth .disjunction (ts ++ joiner .or :: us) (b || c) := by
  generalize hl : Level.disjunction = level at hus
  induction hus with
  | ofConjunction hus _ => exact .or h hus
  | or _ hvs ih _ =>
    rw [← List.cons_append, ← List.append_assoc, ← Bool.or_assoc]
    exact .or (ih hl) hvs
  | _ => cases hl

section Joined

variable {β : Type} {part : β → List (Symbol α)} {value : β → Bool} {xs : List β}

theorem joined_and_reads (hne : xs ≠ []) (h : ∀ x ∈ xs, Reads truth .conjunction (part x) (value x)) :
    Reads truth .conjunction (joined .and (xs.map part)) (xs.all value) := by
  induction xs with
  | nil => exact absurd rfl hne
  | cons x rest ih =>
    have hx := h x (List.mem_cons_self ..)
    cases rest with
    | nil => simpa [joined] using hx
    | cons y rest =>
      exact hx.andConjunction (ih (List.cons_ne_nil y rest) fun z hz => h z (List.mem_cons_of_mem x hz))

theorem joined_or_reads (hne : xs ≠ []) (h : ∀ x ∈ xs, Reads truth .disjunction (part x) (value x)) :
    Reads truth .disjunction (joined .or (xs.map part)) (xs.any value) := by
  induction xs with
  | nil => exact absurd rfl hne
  | cons x rest ih =>
    have hx := h x (List.mem_cons_self ..)
    cases rest with
    | nil => simpa [joined] using hx
    | cons y rest =>
      exact hx.orDisjunction (ih (List.cons_ne_nil y rest) fun z hz => h z (List.mem_cons_of_mem x hz))

end Joined

/-! ### Atoms -/

def atom? : Symbol α → Option α
  | atom a => some a
  | _ => none

/-- The atoms from left to right. -/
def atoms (symbols : List (Symbol α)) : List α := symbols.filterMap atom?

theorem atoms_append (ts us : List (Symbol α)) : atoms (ts ++ us) = atoms ts ++ atoms us :=
  List.filterMap_append

theorem atoms_parenthesized (ts : List (Symbol α)) : atoms (parenthesized ts) = atoms ts := by
  show atoms (ts ++ [closeParen]) = atoms ts
  rw [atoms_append]
  exact List.append_nil _

theorem atoms_joined (j : Joiner) (parts : List (List (Symbol α))) :
    atoms (joined j parts) = parts.flatMap atoms := by
  induction parts with
  | nil => rfl
  | cons part rest ih =>
    cases rest with
    | nil => simp [joined]
    | cons next rest =>
      show atoms (part ++ joiner j :: joined j (next :: rest)) = _
      rw [atoms_append, List.flatMap_cons, ← ih]
      rfl

end Symbol

/-! ### Writing a tree out -/

namespace Tree

open DocQuery.Symbol

variable {α β : Type}

mutual

/-- The symbols of a tree that is a member of a group joined by `inside`, if of any;
`text` gives those of a leaf. -/
def layout (text : Option Joiner → α → List (Symbol β)) (inside : Option Joiner) :
    Tree α → List (Symbol β)
  | leaf a => text inside a
  | node j members => joined j (layoutAll text j members)
  | group t => parenthesized (layout text none t)

def layoutAll (text : Option Joiner → α → List (Symbol β)) (j : Joiner) :
    List (Tree α) → List (List (Symbol β))
  | [] => []
  | t :: rest =>
    (if Flat.needsParens j t then parenthesized (layout text (some j) t)
      else layout text (some j) t) :: layoutAll text j rest

end

/-- The symbols of a member of a group, in parentheses where it needs them. -/
def memberLayout (text : Option Joiner → α → List (Symbol β)) (j : Joiner) (t : Tree α) :
    List (Symbol β) :=
  if Flat.needsParens j t then parenthesized (layout text (some j) t) else layout text (some j) t

theorem layoutAll_eq_map (text : Option Joiner → α → List (Symbol β)) (j : Joiner)
    (members : List (Tree α)) : layoutAll text j members = members.map (memberLayout text j) := by
  induction members with
  | nil => rfl
  | cons t rest ih => rw [layoutAll, ih]; rfl

theorem layout_node (text : Option Joiner → α → List (Symbol β)) (inside : Option Joiner) (j : Joiner)
    (members : List (Tree α)) :
    (node j members).layout text inside = joined j (members.map (memberLayout text j)) := by
  rw [layout, layoutAll_eq_map]

/-- The level at which a tree is written. -/
def level (inside : Option Joiner) : Tree α → Level
  | leaf _ => levelIn inside
  | node j _ => levelIn (some j)
  | group _ => .operand

theorem memberLayout_reads {text : Option Joiner → α → List (Symbol β)} {truth : β → Bool} {b : Bool}
    (j : Joiner) (t : Tree α)
    (h : Reads truth (t.level (some j)) (t.layout text (some j)) b) :
    Reads truth (levelIn (some j)) (memberLayout text j t) b := by
  cases t with
  | leaf a => exact h
  | group t => exact h.ofOperandIn (some j)
  | node k members =>
    cases j with
    | and => exact (Reads.parens h.widen).ofOperandIn (some .and)
    | or => exact h.widen

/-- A normal form reads as its own truth when each leaf reads as its own. -/
theorem layout_reads {text : Option Joiner → α → List (Symbol β)} {truth : β → Bool} {value : α → Bool}
    {t : Tree α} (h : t.Normal)
    (htext : ∀ a ∈ t.leaves, ∀ inside, Reads truth (levelIn inside) (text inside a) (value a))
    (inside : Option Joiner) : Reads truth (t.level inside) (t.layout text inside) (t.eval value) := by
  induction h generalizing inside with
  | leaf a => exact htext a (List.mem_singleton_self a) inside
  | @node j members several _ _ ih =>
    have hne : members ≠ [] := ne_nil_of_several several
    have hmember : ∀ t ∈ members,
        Reads truth (levelIn (some j)) (memberLayout text j t) (t.eval value) := by
      intro t ht
      refine memberLayout_reads j t (ih t ht (fun a ha => htext a ?_) (some j))
      rw [leaves_node]
      exact List.mem_flatMap.mpr ⟨t, ht, ha⟩
    rw [layout_node]
    cases j with
    | and =>
      rw [eval_and]
      exact joined_and_reads hne hmember
    | or =>
      rw [eval_or]
      exact joined_or_reads hne hmember
  | group _ _ ih => exact .parens (ih htext none).widen

theorem atoms_memberLayout (text : Option Joiner → α → List (Symbol β)) (j : Joiner) (t : Tree α) :
    atoms (memberLayout text j t) = atoms (t.layout text (some j)) := by
  rw [memberLayout]
  split
  · exact atoms_parenthesized _
  · rfl

/-- The atoms are those of the leaves, in order. -/
theorem atoms_layout {text : Option Joiner → α → List (Symbol β)} {f : α → List β}
    (htext : ∀ inside a, atoms (text inside a) = f a) (inside : Option Joiner) (t : Tree α) :
    atoms (t.layout text inside) = t.leaves.flatMap f := by
  induction t generalizing inside with
  | leaf a => simp [layout, leaves, htext]
  | node j members ih =>
    rw [layout_node, atoms_joined, List.flatMap_map, leaves_node, List.flatMap_assoc]
    exact List.flatMap_congr fun t ht => (atoms_memberLayout text j t).trans (ih t ht _)
  | group t ih => rw [layout, atoms_parenthesized, ih, leaves]

end Tree

end DocQuery
