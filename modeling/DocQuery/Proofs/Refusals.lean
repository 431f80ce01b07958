import DocQuery.Operation.Editing
import DocQuery.Proofs.Calls

/-! Calls that fail.

An edit made in place asks before it writes, so it comes to what the edit of a value comes to, and
leaves the draft alone if it fails (`perform_settles`). A frozen draft refuses every edit, with an
error that `refusal` tells beforehand. `frozen_answers` is that for any calls. -/
namespace DocQuery

/-! ### Edits in place -/

/-- A result, and the draft that it leaves: its own, or the one there was. -/
def Draft.after (d : Draft) : Except DraftError Draft → Except DraftError Unit × Draft
  | .ok d' => (.ok (), d')
  | .error e => (.error e, d)

namespace Editing

/-- On the draft, the computation comes to the result and leaves no more than that. -/
def Settles (x : Editing Unit) (d : Draft) (result : Except DraftError Draft) : Prop :=
  x.run.run d = d.after result

namespace Settles

variable {α : Type} {d : Draft} {result : Except DraftError Draft}

/-- Asking changes nothing. -/
theorem run_ask (q : Draft → Except DraftError α) (d : Draft) : (Editing.ask q).run.run d = (q d, d) := by
  show (Editing.ask fun _ => q d).run.run d = _
  cases q d <;> rfl

theorem ask {q : Draft → Except DraftError α} {k : α → Editing Unit} {f : α → Except DraftError Draft}
    (h : ∀ a, Settles (k a) d (f a)) : Settles (Editing.ask q >>= k) d (q d >>= f) := by
  rw [Settles, ExceptT.run_bind, StateT.run_bind, run_ask]
  cases q d with
  | error e => rfl
  | ok a => exact h a

/-- What is asked for to see that there is an answer. -/
theorem discard {q : Draft → Except DraftError α} {x : Editing Unit} (h : Settles x d result) :
    Settles (do let () ← Functor.discard (Editing.ask q); x) d
      (do let () ← Functor.discard (q d); result) := by
  have hask := ask (q := q) fun _ => h
  simpa only [Functor.discard, LawfulFunctor.map_const, Function.comp_apply, bind_map_left] using hask

/-- Looking at the draft changes nothing. -/
theorem look {k : Draft → Editing Unit} (h : Settles (k d) d result) : Settles (get >>= k) d result := h

theorem fail (e : DraftError) : Settles (throw e) d (.error e) := rfl

theorem write (f : Draft → Draft) : Settles (modify f) d (.ok (f d)) := rfl

theorem push (target : Target) (p : Predicate) : Settles (Editing.push target p) d (.ok (d.push target p)) := by
  cases target <;> rfl

theorem queryable {qualifier : String} {field : Selector} {k : FieldPath → Editing Unit}
    {f : FieldPath → Except DraftError Draft} (h : ∀ path, Settles (k path) d (f path)) :
    Settles (Editing.queryable qualifier field >>= k) d (do
      let path ← d.resolve qualifier field
      path.checkQueryable.mapError DraftError.condition
      f path) := by
  have hask := ask (q := fun d => d.resolve qualifier field) fun path =>
    ask (d := d) (q := fun _ => path.checkQueryable.mapError DraftError.condition) fun _ => h path
  simpa only [Editing.queryable, bind_assoc, pure_bind] using hask

theorem close : Settles Editing.close d d.closeGroup := by
  refine look ?_
  unfold Draft.closeGroup
  split
  · exact fail _
  · cases d.cursor.last with
    | none => exact fail _
    | some target =>
      refine look ?_
      show Settles _ d (if 0 < Flat.depth (d.conditionOf target) then
        .ok (d.modifyTarget Flat.closeLast target) else .error (.unbalancedGroup d.document.path))
      split
      · exact write _
      · exact fail _

end Settles

end Editing

open Editing (Settles)

/-- An edit in place is the edit of the draft as a value. -/
theorem perform_settles (d : Draft) (e : Edit) : Settles e.perform d (d.apply e) := by
  cases e with
  | addContainer c =>
    refine .ask fun _ => .look ?_
    unfold Draft.addContainer
    split
    · exact .fail _
    · exact .write _
  | compare clause qualifier field op right =>
    have hcompare : Settles (do
        Editing.ask Draft.checkOpen
        let left ← Editing.ask fun d => d.resolve qualifier field
        let p ← Editing.ask fun d => d.predicate qualifier left op right
        Editing.push (Draft.targetOf qualifier clause) p) d (do
        d.checkOpen
        let left ← d.resolve qualifier field
        let p ← d.predicate qualifier left op right
        return d.push (Draft.targetOf qualifier clause) p) :=
      .ask fun _ => .ask fun left => .ask fun p => .push (Draft.targetOf qualifier clause) p
    -- A connecting condition looks for its container first.
    cases clause with
    | filter => exact hcompare
    | connect => exact .discard hcompare
  | joinNext j => exact .ask fun _ => .write _
  | openGroup => exact .ask fun _ => .write _
  | closeGroup => exact .ask fun _ => .close
  | declare p =>
    refine .ask fun _ => .look ?_
    unfold Draft.declare
    split
    · exact .fail _
    · exact .write _
  | project marker qualifier field name =>
    have hproject : ∀ qualifier, Settles (do
        Editing.ask Draft.checkOpen
        let path ← Editing.queryable qualifier field
        modify fun d => { d with
          projection := d.projection ++ [⟨marker, name.getD path.dotted, qualifier, path⟩] }) d (do
        d.checkOpen
        let path ← d.resolve qualifier field
        path.checkQueryable.mapError DraftError.condition
        return { d with projection := d.projection ++ [⟨marker, name.getD path.dotted, qualifier, path⟩] }) :=
      fun qualifier => .ask fun _ => .queryable fun path => .write _
    cases qualifier with
    | some qualifier => exact hproject qualifier
    | none => exact .ask fun qualifier => hproject qualifier
  | sortBy qualifier field direction =>
    refine .ask fun _ => .queryable fun path => ?_
    split
    · exact .write _
    · exact .fail _
  | aggregate qualifier field op name =>
    refine .ask fun _ => .queryable fun path => ?_
    split
    · exact .write _
    · exact .fail _
  | skip n => exact .ask fun _ => .write _
  | take n => exact .ask fun _ => .write _

/-- An edit that fails leaves the draft alone. -/
theorem perform_failed {d after : Draft} {e : Edit} {error : DraftError}
    (h : e.perform.run.run d = (.error error, after)) : after = d := by
  rw [perform_settles d e] at h
  cases hedit : d.apply e with
  | ok d' =>
    rw [hedit] at h
    exact nomatch (Prod.mk.inj h).1
  | error _ =>
    rw [hedit] at h
    exact (Prod.mk.inj h).2.symm

namespace Draft

variable {d : Draft}

/-! ### Frozen drafts -/

/-- The error of an edit on a frozen draft. A connecting condition looks for its container first, and
a projection without a qualifier for the primary one. -/
def refusal (d : Draft) : Edit → DraftError
  | .compare .connect qualifier _ _ _ =>
    if (d.container? qualifier).isSome then .frozen d.document.path else .unknownAlias d.document.path qualifier
  | .project _ none _ _ =>
    if d.primary?.isSome then .frozen d.document.path else .missingPrimary d.document.path
  | _ => .frozen d.document.path

theorem checkOpen_frozen (h : d.isFrozen = true) : d.checkOpen = .error (.frozen d.document.path) :=
  if_pos h

theorem apply_frozen (h : d.isFrozen = true) (e : Edit) : d.apply e = .error (d.refusal e) := by
  have hfrozen := checkOpen_frozen h
  cases e with
  | compare clause qualifier field op right =>
    show d.compare clause qualifier field op right = _
    unfold Draft.compare
    rw [hfrozen]
    cases clause with
    | filter => rfl
    | connect =>
      show _ = Except.error (if (d.container? qualifier).isSome then DraftError.frozen d.document.path
        else .unknownAlias d.document.path qualifier)
      unfold container
      cases d.container? qualifier <;> rfl
  | project marker qualifier field name =>
    show d.project marker qualifier field name = _
    unfold Draft.project
    rw [hfrozen]
    cases qualifier with
    | some qualifier => rfl
    | none =>
      show _ = Except.error (if d.primary?.isSome then DraftError.frozen d.document.path
        else .missingPrimary d.document.path)
      unfold primaryAlias
      cases d.primary? <;> rfl
  | _ =>
    unfold apply
    rw [hfrozen]
    rfl

theorem isFrozen_freeze (d : Draft) : d.freeze.result.isFrozen = true := by
  obtain ⟨outcome, hplan⟩ := exists_plan_freeze d
  rw [isFrozen, hplan]
  rfl

/-! ### Answers -/

/-- What an action answers, and the draft that it leaves. -/
def answer (d : Draft) : Action → Except DraftError Unit × Draft
  | .edit e => e.perform.run.run d
  | .freeze => (d.freeze.result.outcome, d.freeze.result)

/-- The answers of actions, one after the other, and the draft after them. -/
def answerAll (d : Draft) : List Action → List (Except DraftError Unit) × Draft
  | [] => ([], d)
  | action :: rest =>
    let (first, d) := d.answer action
    let (others, d) := d.answerAll rest
    (first :: others, d)

/-- What a frozen draft answers. -/
def frozenAnswer (d : Draft) : Action → Except DraftError Unit
  | .edit e => .error (d.refusal e)
  | .freeze => d.outcome

theorem answer_frozen (h : d.isFrozen = true) (action : Action) : d.answer action = (d.frozenAnswer action, d) := by
  cases action with
  | edit e =>
    show e.perform.run.run d = _
    rw [perform_settles d e, apply_frozen h]
    rfl
  | freeze =>
    show (d.freeze.result.outcome, d.freeze.result) = _
    rw [freeze_frozen h]
    rfl

theorem answerAll_frozen (h : d.isFrozen = true) (actions : List Action) :
    d.answerAll actions = (actions.map d.frozenAnswer, d) := by
  induction actions with
  | nil => rfl
  | cons action rest ih =>
    simp only [answerAll, answer_frozen h, ih]
    rfl

/-- **Freezing is for good, and a call that fails changes nothing.** Once a draft is frozen, whether
that gave a plan or an error, it stays the same under all calls, so that whatever is asked of it is
answered as before: every edit is refused, and freezing again gives the first outcome. At any time an
edit that fails leaves the whole draft as it was, with what waits in its cursor. -/
theorem frozen_answers (d : Draft) :
    (∀ actions, d.freeze.result.answerAll actions =
      (actions.map d.freeze.result.frozenAnswer, d.freeze.result)) ∧
    ∀ e error after, d.answer (.edit e) = (.error error, after) → after = d :=
  ⟨answerAll_frozen (isFrozen_freeze d), fun _ _ _ => perform_failed⟩

end Draft

end DocQuery
