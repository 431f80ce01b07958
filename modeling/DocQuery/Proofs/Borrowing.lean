import DocQuery.Proofs.Recasting
import DocQuery.Registry

/-! Borrowed drafts.

A command without a draft of its own borrows that of a fallback. Compiling a borrowed draft is
compiling the draft recast for the command (`compile_recast`), and that is what the same calls make
of a draft of the command itself. So a borrowed draft is as good as one of the command
(`borrowed_compile`). -/
namespace DocQuery

namespace Draft

open Sql (Dialect)

variable {d : Draft} {command source : Command} {mark : FieldPath} {plan : Plan} {dialect : Dialect}
  {params : ParamSet}

/-! ### Compiling -/

theorem isKeyed_recast (filter : Option (Tree Predicate)) :
    (d.recast command mark).isKeyed filter = d.isKeyed filter := by
  have hdocument : (d.recast command mark).document = d.document := rfl
  unfold isKeyed
  rw [hdocument]
  rcases cases_of_map_eq (primary?_recast (d := d)) with ⟨hc', hc⟩ | ⟨c', c, hc', hc, hqualifier⟩
  · rw [hc, hc']
  · rw [hc, hc']
    cases filter with
    | none => rfl
    | some t =>
      cases d.document.identifier? with
      | none => rfl
      | some identifier => simp only [hqualifier]

theorem compileContainers_recast (h : d.Own) (connects : List (Option (Tree Predicate))) :
    compileContainers dialect params ((d.recast command mark).containers.zip connects) =
      Resolution.retarget command.operation <$> compileContainers dialect params (d.containers.zip connects) := by
  obtain ⟨c, rest, hcontainers, hjoin, -⟩ := h
  show compileContainers dialect params ((d.containers.modifyHead _).zip connects) = _
  rw [hcontainers]
  cases connects with
  | nil => rfl
  | cons connect connects =>
    simp only [List.modifyHead_cons, List.zip_cons_cons, compileContainers, map_bind, map_pure]
    refine bind_congr fun tokens => bind_congr fun containers => ?_
    have hfirst : ∀ text, (c.compiled text).join.isNone = true := by
      intro text
      rw [Container.compiled, hjoin]
      rfl
    rw [Resolution.retarget, if_pos (hfirst _)]
    rfl

theorem compileConditions_recast (h : d.Own) :
    (d.recast command mark).compileConditions plan dialect params =
      Prod.map (Resolution.retarget command.operation) id <$> d.compileConditions plan dialect params := by
  unfold compileConditions
  rw [compileContainers_recast h, bind_map_left, map_bind]
  refine bind_congr fun containers => ?_
  rw [map_bind]
  rfl

theorem compilePlan_recast (source : Command) (h : d.Own) (hdeleted : d.deletedField = none)
    (hmark : Resolution.markField? d.schema d.document = some mark) :
    (d.recast command mark).compilePlan plan dialect params =
      (d.compilePlan plan dialect params).map (Resolution.adapt ⟨d, command, source⟩) := by
  unfold compilePlan
  rw [compileConditions_recast h, ExceptT.run_map, StateT.run_map]
  obtain ⟨_ | ⟨containers, filter⟩, bound⟩ := (d.compileConditions plan dialect params).run.run #[]
  · rfl
  · refine congrArg Except.ok ?_
    simp only [Resolution.adapt, isKeyed_recast, hdeleted, hmark]
    rfl

/-- Compiling a borrowed draft is compiling the draft recast. -/
theorem compile_recast (h : d.Own) (hdeleted : d.deletedField = none)
    (hmark : Resolution.markField? d.schema d.document = some mark) (hsource : command ≠ source) :
    (d.recast command mark).compile dialect params = Resolution.compile ⟨d, command, source⟩ dialect params := by
  have hfallback : Resolution.isFallback ⟨d, command, source⟩ = true := bne_iff_ne.mpr hsource
  unfold Resolution.compile
  rw [if_pos hfallback]
  unfold compile
  rw [plan?_recast]
  cases d.plan? with
  | none => rfl
  | some plan =>
    simp only [compilePlan_recast source h hdeleted hmark]
    cases d.compilePlan plan dialect params <;> rfl

/-! ### Starting -/

/-- Only changes are borrowed, for other changes. -/
theorem mem_fallbacks (h : source ∈ command.fallbacks) :
    (command = .softDelete ∨ command = .restore) ∧ source.needsFilter = true ∧ command ≠ source := by
  revert h
  cases command <;> cases source <;> decide

/-- Where marks of deleted rows can be kept, a draft starts as one of a fallback, recast. -/
theorem start_recast (source : Command) {schema : Schema} {document : Document}
    (h : command = .softDelete ∨ command = .restore) (hstart : start schema document command = .ok d) :
    ∃ mark, Resolution.markField? schema document = some mark ∧
      d = (forDocument schema document source).recast command mark := by
  have hwith : withDeletedField schema document command = .ok d := by
    rcases h with rfl | rfl
    · exact hstart
    · exact hstart
  obtain ⟨field, mark, hfield, hpath, hd⟩ := withDeletedField_ok hwith
  refine ⟨mark, ?_, hd⟩
  rw [Resolution.markField?, hfield]
  exact congrArg Except.toOption hpath

/-- **A borrowed draft is as good as one of the command.** Whatever the calls, a draft of a fallback
is accepted by freezing exactly when the draft that the command itself starts with is. Compiled as
the command, it gives the same statement or fails in the same way, for every dialect and all values
of the parameters. -/
theorem borrowed_compile {schema : Schema} {document : Document} {explicit : Draft}
    (hsource : source ∈ command.fallbacks) (hstart : start schema document command = .ok explicit)
    (actions : List Action) :
    let lent := (forDocument schema document source).actAll actions
    let own := explicit.actAll actions
    (lent.freeze.result.outcome = .ok () ↔ own.freeze.result.outcome = .ok ()) ∧
      ∀ dialect params, Resolution.compile ⟨lent, command, source⟩ dialect params = own.compile dialect params := by
  intro lent own
  obtain ⟨hcommand, hneeds, hne⟩ := mem_fallbacks hsource
  have hcommandNeeds : command.needsFilter = true := by
    rcases hcommand with rfl | rfl <;> rfl
  obtain ⟨mark, hmark, hexplicit⟩ := start_recast source hcommand hstart
  have hforDocument := own_forDocument schema document source
  have hrecast : own = lent.recast command mark := by
    show explicit.actAll actions = _
    rw [hexplicit]
    exact actAll_recast hforDocument hneeds hcommandNeeds actions
  have hkept : Kept (forDocument schema document source) lent := kept_actAll _ actions
  have hown : lent.Own := hforDocument.kept hkept
  have hlentNeeds : lent.command.needsFilter = true := hkept.command ▸ hneeds
  refine ⟨?_, fun dialect params => ?_⟩
  · rw [hrecast, freeze_recast hown hlentNeeds hcommandNeeds, outcome_recast]
    cases lent.freeze.result.outcome <;> simp [Except.mapError]
  · rw [hrecast]
    refine (compile_recast hown hkept.deletedField ?_ hne).symm
    rw [hkept.schema, hkept.document]
    exact hmark

/-! A draft that deletes a note, joined with another, borrowed to mark the note as deleted. -/

def note : Document where
  path := "desk.Note"
  name := "Note"
  storage := "notes"
  fields := [{ name := "id", storage := "Id", kind := .int, roles := [.identifier] },
    { name := "gone", storage := "Gone", kind := .timestamp, nullable := true, roles := [.deleted] }]

def noteActions : List Action :=
  [.edit (.addContainer (.joined note .cross "other")),
    .edit (.compare .filter "" (.named "id") .equal (.const (.int 7) false)), .freeze,
    .edit (.take 1)]

theorem borrowed_compile_note :
    ∃ explicit, start [note] note .softDelete = .ok explicit ∧ Command.delete ∈ Command.softDelete.fallbacks ∧
      let lent := (forDocument [note] note .delete).actAll noteActions
      let own := explicit.actAll noteActions
      ((lent.freeze.result.outcome = .ok () ↔ own.freeze.result.outcome = .ok ()) ∧
        ∀ dialect params, Resolution.compile ⟨lent, .softDelete, .delete⟩ dialect params = own.compile dialect params) ∧
      ∃ s, (own.compile .postgres {}).result = .ok s ∧ s.filter = some "\"Id\" = $1" ∧
        s.containers.map (fun c => c.operation) = [.update, .select] := by
  obtain ⟨explicit, hstart⟩ : ∃ explicit, start [note] note .softDelete = .ok explicit := ⟨_, rfl⟩
  have hsource : Command.delete ∈ Command.softDelete.fallbacks := by decide
  refine ⟨explicit, hstart, hsource, borrowed_compile hsource hstart noteActions, ?_⟩
  obtain rfl := Except.ok.inj hstart
  exact ⟨_, rfl, rfl, rfl⟩

end Draft

end DocQuery
