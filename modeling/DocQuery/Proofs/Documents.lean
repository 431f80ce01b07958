import DocQuery.Registry
import Mathlib.Data.List.Basic
import Mathlib.Data.List.Perm.Basic

/-! The documents of a registry.

Repetitions are left out only where they stand side by side. In a list that is in order they do, so
that leaving them out gives a list without repetitions (`pairwise_lt_eraseReps`), and so the
documents are listed once and in order (`documents_sorted`), whatever the order of the drafts
(`documents_eq`). -/
namespace DocQuery

/-! ### Leaving out repetitions -/

section Repetitions

variable {α : Type} [DecidableEq α]

theorem eraseReps_loop (a : α) (as kept : List α) :
    List.eraseRepsBy.loop (· == ·) a as kept = kept.reverse ++ List.eraseRepsBy.loop (· == ·) a as [] := by
  induction as generalizing a kept with
  | nil => simp [List.eraseRepsBy.loop]
  | cons b rest ih =>
    simp only [List.eraseRepsBy.loop]
    split
    · exact ih a kept
    · rw [ih b (a :: kept), ih b [a], List.reverse_cons, List.append_assoc]
      rfl

/-- An element goes when the next one is the same. -/
theorem eraseReps_cons_cons (a b : α) (rest : List α) :
    (a :: b :: rest).eraseReps = if a = b then (b :: rest).eraseReps else a :: (b :: rest).eraseReps := by
  show List.eraseRepsBy.loop (· == ·) a (b :: rest) [] =
    if a = b then List.eraseRepsBy.loop (· == ·) b rest [] else a :: List.eraseRepsBy.loop (· == ·) b rest []
  simp only [List.eraseRepsBy.loop]
  split
  · next hsame =>
    obtain rfl := eq_of_beq hsame
    rw [if_pos rfl]
  · next hother =>
    rw [if_neg (ne_of_beq_false hother), eraseReps_loop]
    rfl

theorem mem_eraseReps {a : α} {as : List α} : a ∈ as.eraseReps ↔ a ∈ as := by
  match as with
  | [] => exact Iff.rfl
  | [b] => exact Iff.rfl
  | b :: c :: rest =>
    have ih : a ∈ (c :: rest).eraseReps ↔ a ∈ c :: rest := mem_eraseReps
    rw [eraseReps_cons_cons]
    split
    · next hsame =>
      rw [ih, hsame]
      simp
    · rw [List.mem_cons, ih, ← List.mem_cons]

/-- In a list that is in order every repetition is left out. -/
theorem pairwise_lt_eraseReps {as : List String} (h : as.Pairwise (· ≤ ·)) : as.eraseReps.Pairwise (· < ·) := by
  match as with
  | [] => exact .nil
  | [a] => exact List.pairwise_singleton _ a
  | a :: b :: rest =>
    obtain ⟨hfirst, hrest⟩ := List.pairwise_cons.mp h
    have ih := pairwise_lt_eraseReps hrest
    rw [eraseReps_cons_cons]
    split
    · exact ih
    · next hother =>
      refine List.pairwise_cons.mpr ⟨fun c hc => ?_, ih⟩
      have hab : a < b := Std.lt_of_le_of_ne (hfirst b (List.mem_cons_self ..)) hother
      -- What stands after `b` is `b` or greater, so it is greater than `a`.
      rcases List.mem_cons.mp (mem_eraseReps.mp hc) with rfl | hc
      · exact hab
      · exact Std.lt_of_lt_of_le hab ((List.pairwise_cons.mp hrest).1 c hc)

end Repetitions

/-! ### Documents -/

namespace Registrations

variable {r r' : Registrations}

theorem keyLe_trans (a b c : String × Command) (hab : keyLe a b = true) (hbc : keyLe b c = true) :
    keyLe a c = true := by
  unfold keyLe at hab hbc ⊢
  by_cases h₁ : a.1 = b.1 <;> by_cases h₂ : b.1 = c.1
  · simp only [h₁, h₂, if_true, decide_eq_true_eq] at hab hbc ⊢
    exact Nat.le_trans hab hbc
  · simp_all
  · simp_all
  · simp only [h₁, h₂, if_false, decide_eq_true_eq] at hab hbc
    have hne : a.1 ≠ c.1 := fun hac => h₁ (String.le_antisymm hab (hac ▸ hbc))
    simp [hne, String.le_trans hab hbc]

theorem keyLe_total (a b : String × Command) : (keyLe a b || keyLe b a) = true := by
  unfold keyLe
  by_cases h : a.1 = b.1
  · simp [h, Nat.le_total]
  · simp [h, Ne.symm h, String.le_total]

theorem le_of_keyLe {a b : String × Command} (h : keyLe a b = true) : a.1 ≤ b.1 := by
  unfold keyLe at h
  split at h
  · next hsame => exact hsame ▸ String.le_refl _
  · exact of_decide_eq_true h

theorem mem_documents {path : String} : path ∈ r.documents ↔ ∃ d ∈ r.drafts, d.document.path = path := by
  simp [documents, keys, mem_eraseReps]

/-- The documents are listed once and in order. -/
theorem documents_sorted (r : Registrations) : r.documents.Pairwise (· < ·) := by
  refine pairwise_lt_eraseReps (List.pairwise_map.mpr ?_)
  exact (List.pairwise_mergeSort keyLe_trans keyLe_total _).imp le_of_keyLe

/-- The list of documents depends on what documents there are only. -/
theorem documents_eq (h : ∀ path, path ∈ r.documents ↔ path ∈ r'.documents) : r.documents = r'.documents := by
  have hnodup (r : Registrations) : r.documents.Nodup := by
    refine List.Pairwise.imp ?_ (documents_sorted r)
    rintro a _ hlt rfl
    exact String.lt_irrefl a hlt
  refine List.Perm.eq_of_pairwise (fun a b _ _ hab hba => absurd (Std.lt_trans hab hba) Std.lt_irrefl)
    (documents_sorted r) (documents_sorted r') ?_
  exact (List.perm_ext_iff_of_nodup (hnodup r) (hnodup r')).mpr h

end Registrations

end DocQuery
