import DocQuery.Proofs.FlatEncode

/-! Boolean expressions as flat conditions.

An `Expression` is operands joined by "and" and "or", with groups around any of them. Its flat
terms count what opens and what closes at each condition (`terms`). A group around one condition
leaves no trace in them, since what opens there closes there; any other is a pair of parentheses.
Either way the terms read as the expression (`spelt`). -/
namespace DocQuery

open DocQuery.Symbol (Level Reads)

/-! ### Expressions -/

/-- Operands joined by "and", joined by "or". -/
inductive Expression (α : Type) : Level → Type where
  | condition (a : α) : Expression α .operand
  | parens (e : Expression α .disjunction) : Expression α .operand
  | ofOperand (e : Expression α .operand) : Expression α .conjunction
  | and (e : Expression α .conjunction) (f : Expression α .operand) : Expression α .conjunction
  | ofConjunction (e : Expression α .conjunction) : Expression α .disjunction
  | or (e : Expression α .disjunction) (f : Expression α .conjunction) : Expression α .disjunction

namespace Expression

variable {α β : Type}

def eval (truth : α → Bool) : {level : Level} → Expression α level → Bool
  | _, condition a => truth a
  | _, parens e => e.eval truth
  | _, ofOperand e => e.eval truth
  | _, and e f => e.eval truth && f.eval truth
  | _, ofConjunction e => e.eval truth
  | _, or e f => e.eval truth || f.eval truth

/-- The conditions from left to right. -/
def conditions : {level : Level} → Expression α level → List α
  | _, condition a => [a]
  | _, parens e => e.conditions
  | _, ofOperand e => e.conditions
  | _, and e f => e.conditions ++ f.conditions
  | _, ofConjunction e => e.conditions
  | _, or e f => e.conditions ++ f.conditions

/-! ### Flat terms -/

section Terms

variable (meaning : α → β) (connect : Bool)

/-- The flat terms of an expression. The first is joined as `byOr` says and opens so many groups
besides those of the expression. -/
def terms (byOr : Bool) (opens : Nat) : {level : Level} → Expression α level → List (FlatTerm β)
  | _, condition a => [{ item := meaning a, byOr := byOr, connect := connect, delta := opens }]
  | _, parens e => Flat.closeLast (e.terms byOr (opens + 1))
  | _, ofOperand e => e.terms byOr opens
  | _, and e f => e.terms byOr opens ++ f.terms false 0
  | _, ofConjunction e => e.terms byOr opens
  | _, or e f => e.terms byOr opens ++ f.terms true 0

end Terms

end Expression

namespace Flat

variable {α : Type}

theorem closeLast_openFirst (terms : List (FlatTerm α)) :
    closeLast (openFirst terms) = openFirst (closeLast terms) := by
  match terms with
  | [] => rfl
  | [t] =>
    simp only [openFirst, closeLast]
    rw [Int.add_sub_cancel, Int.sub_add_cancel]
  | t :: u :: rest => rfl

theorem openFirst_append {list : List (FlatTerm α)} (h : list ≠ []) (more : List (FlatTerm α)) :
    openFirst (list ++ more) = openFirst list ++ more := by
  cases list with
  | nil => exact absurd rfl h
  | cons t rest => rfl

theorem closeLast_append_right (list : List (FlatTerm α)) {more : List (FlatTerm α)} (h : more ≠ []) :
    closeLast (list ++ more) = list ++ closeLast more := by
  obtain ⟨init, t, rfl⟩ : ∃ init t, more = init ++ [t] := ⟨_, _, (List.dropLast_append_getLast h).symm⟩
  rw [← List.append_assoc, closeLast_append, closeLast_append, List.append_assoc]

theorem closeLast_ne_nil {list : List (FlatTerm α)} (h : list ≠ []) : closeLast list ≠ [] := by
  obtain ⟨init, t, rfl⟩ : ∃ init t, list = init ++ [t] := ⟨_, _, (List.dropLast_append_getLast h).symm⟩
  rw [closeLast_append]
  exact List.append_ne_nil_of_right_ne_nil _ (List.cons_ne_nil _ _)

theorem depth_openFirst {list : List (FlatTerm α)} (h : list ≠ []) : depth (openFirst list) = depth list + 1 := by
  cases list with
  | nil => exact absurd rfl h
  | cons t rest =>
    simp only [openFirst, depth]
    omega

/-- What terms are that can stand as a condition of the level in any other. -/
structure Spelt {α : Type} (truth : α → Bool) (level : Level) (byOr : Bool) (terms : List (FlatTerm α))
    (b : Bool) : Prop where
  ends : Ends byOr terms
  balanced : Balanced terms
  reads : Reads truth level (symbols terms) b

namespace Spelt

variable {truth : α → Bool} {byOr : Bool} {terms more : List (FlatTerm α)} {b c : Bool}

/-- A group. Around one term it is nothing. -/
theorem enclose (h : Spelt truth .disjunction byOr terms b) :
    Spelt truth .operand byOr (Flat.enclose terms) b := by
  by_cases hlength : 2 ≤ terms.length
  · refine ⟨h.ends.enclose hlength, h.balanced.enclose h.ends hlength, ?_⟩
    rw [symbols_enclose h.ends hlength]
    exact .parens h.reads
  · obtain ⟨t, rest, rfl, -⟩ := h.ends.first
    obtain rfl : rest = [] := by
      cases rest with
      | nil => rfl
      | cons u rest => exact absurd (by simp) hlength
    have hclosed : t.delta = 0 := by simpa [depth] using h.balanced.closed
    have hterm : Flat.enclose [t] = [t] := by
      simp only [Flat.enclose, openFirst, closeLast, Int.add_sub_cancel]
    have hsymbols : symbols [t] = [.atom t.item] := by
      rw [symbols_cons, body, hclosed]
      rfl
    have hreads := h.reads
    rw [hsymbols] at hreads
    obtain rfl : b = truth t.item := hreads.unique (Reads.atom t.item).widen
    rw [hterm]
    refine ⟨h.ends, h.balanced, ?_⟩
    rw [hsymbols]
    exact .atom t.item

theorem and (h : Spelt truth .conjunction byOr terms b) (hmore : Spelt truth .operand false more c) :
    Spelt truth .conjunction byOr (terms ++ more) (b && c) := by
  refine ⟨h.ends.append hmore.ends, h.balanced.append hmore.balanced, ?_⟩
  rw [symbols_append h.ends.ne_nil, hmore.ends.later]
  exact .and h.reads hmore.reads

theorem or (h : Spelt truth .disjunction byOr terms b) (hmore : Spelt truth .conjunction true more c) :
    Spelt truth .disjunction byOr (terms ++ more) (b || c) := by
  refine ⟨h.ends.append hmore.ends, h.balanced.append hmore.balanced, ?_⟩
  rw [symbols_append h.ends.ne_nil, hmore.ends.later]
  exact .or h.reads hmore.reads

end Spelt

end Flat

namespace Expression

open Flat

variable {α β : Type} {level : Level} (meaning : α → β) (connect : Bool)

theorem terms_ne_nil (byOr : Bool) (opens : Nat) (e : Expression α level) :
    e.terms meaning connect byOr opens ≠ [] := by
  induction e generalizing opens with
  | condition a => exact List.cons_ne_nil _ _
  | parens e ih => exact closeLast_ne_nil (ih (opens + 1))
  | ofOperand e ih | ofConjunction e ih => exact ih opens
  | and e f ihe _ | or e f ihe _ => exact List.append_ne_nil_of_left_ne_nil (ihe opens) _

/-- A group that is opened before an expression opens at its first term. -/
theorem terms_succ (byOr : Bool) (opens : Nat) (e : Expression α level) :
    e.terms meaning connect byOr (opens + 1) = openFirst (e.terms meaning connect byOr opens) := by
  induction e generalizing opens with
  | condition a => rfl
  | parens e ih => rw [terms, ih (opens + 1), closeLast_openFirst, terms]
  | ofOperand e ih | ofConjunction e ih => exact ih opens
  | and e f ihe _ | or e f ihe _ =>
    rw [terms, ihe opens, terms, openFirst_append (terms_ne_nil meaning connect byOr opens e)]

/-- The terms of an expression read as it does. -/
theorem spelt (truth : β → Bool) (byOr : Bool) (e : Expression α level) :
    Spelt truth level byOr (e.terms meaning connect byOr 0) (e.eval fun a => truth (meaning a)) := by
  induction e generalizing byOr with
  | condition a =>
    refine ⟨⟨⟨_, [], rfl, rfl, Int.le_refl 0⟩, ⟨[], _, rfl, Int.le_refl 0⟩⟩, ⟨fun k => ?_, rfl⟩, .atom _⟩
    cases k <;> simp [terms, depth]
  | parens e ih =>
    rw [terms, terms_succ]
    exact (ih byOr).enclose
  | ofOperand e ih => exact ⟨(ih byOr).ends, (ih byOr).balanced, .ofOperand (ih byOr).reads⟩
  | and e f ihe ihf => exact (ihe byOr).and (ihf false)
  | ofConjunction e ih => exact ⟨(ih byOr).ends, (ih byOr).balanced, .ofConjunction (ih byOr).reads⟩
  | or e f ihe ihf => exact (ihe byOr).or (ihf true)

theorem depth_terms (byOr : Bool) (opens : Nat) (e : Expression α level) :
    depth (e.terms meaning connect byOr opens) = opens := by
  induction opens with
  | zero => exact (spelt meaning connect (fun _ => true) byOr e).balanced.closed
  | succ n ih =>
    rw [terms_succ, depth_openFirst (terms_ne_nil meaning connect byOr n e), ih]
    rfl

theorem items_terms (byOr : Bool) (opens : Nat) (e : Expression α level) :
    (e.terms meaning connect byOr opens).map (fun t => t.item) = e.conditions.map meaning := by
  induction e generalizing byOr opens with
  | condition a => rfl
  | parens e ih =>
    rw [terms, map_closeLast fun _ _ => rfl]
    exact ih byOr (opens + 1)
  | ofOperand e ih | ofConjunction e ih => exact ih byOr opens
  | and e f ihe ihf | or e f ihe ihf => rw [terms, List.map_append, ihe, ihf, conditions, List.map_append]

end Expression

end DocQuery
