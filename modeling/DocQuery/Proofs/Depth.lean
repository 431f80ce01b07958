import DocQuery.Proofs.Growth

/-! How deep the conditions of a draft are.

Groups are closed only where one is open, so no condition falls below depth zero
(`Made.neverNegative`). Nor is any deeper than calls have opened groups, if containers bring none along
(`depth_bounded`): counts of 32 bits are enough for fewer than 2^31 of them. Groups that wait at the
cursor are opened by the next condition (`Applied.opens`), so it is the two together that calls add to. -/
namespace DocQuery

/-! ### Flat conditions -/

namespace Flat

variable {α : Type} {list : List (FlatTerm α)} {t : FlatTerm α} {m n : Int}

/-- The depth never passes the bound. -/
def AtMost (n : Int) (list : List (FlatTerm α)) : Prop := ∀ k, depth (list.take k) ≤ n

/-- One term more has one depth more. -/
theorem forall_depth_concat {P : Int → Prop} :
    (∀ k, P (depth ((list ++ [t]).take k))) ↔ (∀ k, P (depth (list.take k))) ∧ P (depth (list ++ [t])) := by
  constructor
  · refine fun h => ⟨fun k => ?_, ?_⟩
    · by_cases hk : k ≤ list.length
      · have hinit := h k
        rwa [List.take_append_of_le_length hk] at hinit
      · have hinit := h list.length
        rw [List.take_append_of_le_length (Nat.le_refl _), List.take_length] at hinit
        rwa [List.take_of_length_le (by omega)]
    · have hall := h (list ++ [t]).length
      rwa [List.take_length] at hall
  · rintro ⟨hinit, hall⟩ k
    by_cases hk : k ≤ list.length
    · rw [List.take_append_of_le_length hk]
      exact hinit k
    · rw [List.take_of_length_le (by simp; omega)]
      exact hall

theorem neverNegative_nil : NeverNegative ([] : List (FlatTerm α)) := by
  intro k
  rw [List.take_nil]
  exact Int.le_refl 0

theorem NeverNegative.depth (h : NeverNegative list) : 0 ≤ Flat.depth list := by
  have hall := h list.length
  rwa [List.take_length] at hall

theorem NeverNegative.concat (h : NeverNegative list) (hdepth : 0 ≤ Flat.depth (list ++ [t])) :
    NeverNegative (list ++ [t]) :=
  (forall_depth_concat (P := fun depth => 0 ≤ depth)).mpr ⟨h, hdepth⟩

theorem NeverNegative.init (h : NeverNegative (list ++ [t])) : NeverNegative list :=
  ((forall_depth_concat (P := fun depth => 0 ≤ depth)).mp h).1

/-- A group that is open may be closed. -/
theorem NeverNegative.closeLast (h : NeverNegative list) (hdepth : 0 < Flat.depth list) :
    NeverNegative (Flat.closeLast list) := by
  rcases List.eq_nil_or_concat list with rfl | ⟨init, t, rfl⟩
  · exact neverNegative_nil
  · rw [List.concat_eq_append] at h hdepth ⊢
    rw [closeLast_append]
    refine h.init.concat ?_
    simp only [depth_append, Flat.depth] at hdepth ⊢
    omega

theorem AtMost.depth (h : AtMost n list) : Flat.depth list ≤ n := by
  have hall := h list.length
  rwa [List.take_length] at hall

theorem AtMost.mono (h : AtMost m list) (hle : m ≤ n) : AtMost n list :=
  fun k => Int.le_trans (h k) hle

theorem AtMost.concat (h : AtMost n list) (hdepth : Flat.depth (list ++ [t]) ≤ n) : AtMost n (list ++ [t]) :=
  (forall_depth_concat (P := fun depth => depth ≤ n)).mpr ⟨h, hdepth⟩

theorem AtMost.init (h : AtMost n (list ++ [t])) : AtMost n list :=
  ((forall_depth_concat (P := fun depth => depth ≤ n)).mp h).1

theorem AtMost.closeLast (h : AtMost n list) : AtMost n (Flat.closeLast list) := by
  rcases List.eq_nil_or_concat list with rfl | ⟨init, t, rfl⟩
  · exact h
  · rw [List.concat_eq_append] at h ⊢
    rw [closeLast_append]
    refine h.init.concat ?_
    have hdepth := h.depth
    simp only [depth_append, Flat.depth] at hdepth ⊢
    omega

end Flat

/-- The groups that a call leaves waiting. -/
def Edit.opened : Edit → Nat
  | .openGroup => 1
  | _ => 0

namespace Draft

variable {d d' : Draft} {e : Edit} {target : Target}

open Flat (NeverNegative AtMost)

/-! ### No condition falls below zero -/

theorem Rewrites.neverNegative {terms terms' : List (FlatTerm Predicate)} (h : Rewrites d target e terms terms')
    (hbrought : ∀ c, e = .addContainer c → NeverNegative c.connect) (hterms : NeverNegative terms) :
    NeverNegative terms' := by
  cases h with
  | same => exact hterms
  | add =>
    refine hterms.concat ?_
    have hdepth := hterms.depth
    simp only [Flat.depth_append, Flat.depth]
    omega
  | close depth => exact hterms.closeLast depth
  | bring => exact hbrought _ rfl

/-- The depth of a condition is never below zero, whatever calls made it. -/
theorem Made.neverNegative (h : Made d) (target : Target) : NeverNegative (d.conditionOf target) := by
  -- A condition brought along is one of another draft, found there by its name: names have to be distinct too.
  have hall : Distinct d ∧ ∀ target, NeverNegative (d.conditionOf target) := by
    refine Made.induction (P := fun d => Distinct d ∧ ∀ target, NeverNegative (d.conditionOf target))
      (fun d hstart => ⟨hstart.distinct, fun target => ?_⟩) (fun d e d' hd hgiven he => ?_) (fun d hd => ?_) h
    · rw [hstart.conditionOf]
      exact Flat.neverNegative_nil
    · refine ⟨(apply_ok he).distinct hd.1, fun target => ?_⟩
      refine ((apply_ok he).condition target).neverNegative (fun c hc => ?_) (hd.2 target)
      rcases hgiven c hc with hplain | ⟨source, origin, hsource, hmem, hsame⟩
      · rw [hplain]
        exact Flat.neverNegative_nil
      · rw [hsame, ← conditionOf_of_mem hsource.1 hmem]
        exact hsource.2 _
    · refine ⟨hd.1.freeze, fun target => ?_⟩
      rw [conditionOf_freeze]
      exact hd.2 target
  exact hall.2 target

/-! ### No condition is deeper than calls make it -/

/-- The groups that waited and that a call opens. -/
def spent (d : Draft) : Edit → Nat
  | .compare _ _ _ _ _ => d.cursor.opens
  | _ => 0

theorem Started.opens (h : Started d) : d.cursor.opens = 0 := by
  cases h with
  | withDeletedField h =>
    obtain ⟨_, path, -, -, rfl⟩ := withDeletedField_ok h
    rfl
  | _ => rfl

/-- How often calls open a group. -/
def openings : List Action → Nat
  | [] => 0
  | .freeze :: rest => openings rest
  | .edit e :: rest => e.opened + openings rest

/-- The groups that wait are those that were opened less those that a condition has. -/
theorem Applied.opens (h : Applied d e d') : d'.cursor.opens + d.spent e = d.cursor.opens + e.opened := by
  cases h with
  | compare => exact Nat.zero_add _
  | closeGroup => rw [cursor_modifyTarget]; rfl
  | _ => rfl

theorem Rewrites.atMost {terms terms' : List (FlatTerm Predicate)} {n : Int} (h : Rewrites d target e terms terms')
    (hbrought : ∀ c, e = .addContainer c → AtMost n c.connect) (hterms : AtMost n terms) :
    AtMost (n + d.spent e) terms' := by
  cases h with
  | same => exact hterms.mono (by omega)
  | add =>
    refine (hterms.mono (by omega)).concat ?_
    have hdepth := hterms.depth
    simp only [Flat.depth_append, Flat.depth, Comparison.call, spent]
    omega
  | close => exact hterms.closeLast.mono (by omega)
  | bring => exact (hbrought _ rfl).mono (by omega)

/-- No more groups wait than were opened, and none of the conditions would be deeper than that and `most` together if
they were opened in it. -/
structure Shallow (most opened : Nat) (d : Draft) : Prop where
  waiting : d.cursor.opens ≤ opened
  conditions : ∀ target, AtMost (most + opened - d.cursor.opens) (d.conditionOf target)

theorem Applied.shallow {most opened : Nat} (h : Applied d e d')
    (hbrought : ∀ c, e = .addContainer c → AtMost most c.connect) (hd : d.Shallow most opened) :
    d'.Shallow most (opened + e.opened) := by
  have hopens := h.opens
  have hwaiting := hd.waiting
  refine ⟨by omega, fun target => ?_⟩
  refine ((h.condition target).atMost (fun c hc => (hbrought c hc).mono ?_) (hd.conditions target)).mono ?_
  · omega
  · omega

theorem Shallow.freeze {most opened : Nat} (h : d.Shallow most opened) : d.freeze.result.Shallow most opened := by
  have hcursor : d.freeze.result.cursor = d.cursor := by
    cases hplan : d.plan with
    | some outcome => rw [freeze_frozen (Option.isSome_iff_exists.mpr ⟨outcome, hplan⟩)]
    | none => rw [freeze_open hplan]
  refine ⟨hcursor ▸ h.waiting, fun target => ?_⟩
  rw [conditionOf_freeze, hcursor]
  exact h.conditions target

theorem Shallow.actAll {most opened : Nat} {actions : List Action} (h : d.Shallow most opened)
    (hbrought : ∀ c, .edit (.addContainer c) ∈ actions → AtMost most c.connect) :
    (d.actAll actions).Shallow most (opened + openings actions) := by
  induction actions generalizing d opened with
  | nil => exact h
  | cons action rest ih =>
    have ih := fun {d : Draft} {opened : Nat} (hd : d.Shallow most opened) =>
      ih hd fun c hc => hbrought c (List.mem_cons_of_mem _ hc)
    cases action with
    | freeze => exact ih h.freeze
    | edit e =>
      rw [openings, ← Nat.add_assoc]
      rw [Draft.actAll, act, edit]
      cases he : d.apply e with
      | ok d' =>
        exact ih ((apply_ok he).shallow (fun c hc => hbrought c (hc ▸ List.mem_cons_self ..)) h)
      | error _ =>
        have hwaiting := h.waiting
        have hmore : d.Shallow most (opened + e.opened) :=
          ⟨by omega, fun target => (h.conditions target).mono (by omega)⟩
        exact ih hmore

/-- No condition is deeper, nor are more groups waiting, than calls opened and containers brought along. -/
theorem depth_bounded {start : Draft} {actions : List Action} {most : Nat} (hstart : Started start)
    (hbrought : ∀ c, .edit (.addContainer c) ∈ actions → AtMost most c.connect) :
    (start.actAll actions).cursor.opens ≤ openings actions ∧
      ∀ target, AtMost (most + openings actions) ((start.actAll actions).conditionOf target) := by
  have hfirst : start.Shallow most 0 := by
    refine ⟨Nat.le_of_eq hstart.opens, fun target k => ?_⟩
    rw [hstart.conditionOf, List.take_nil, hstart.opens]
    show (0 : Int) ≤ _
    omega
  have hlast := hfirst.actAll hbrought
  rw [Nat.zero_add] at hlast
  exact ⟨hlast.waiting, fun target => (hlast.conditions target).mono (by omega)⟩

end Draft

end DocQuery
