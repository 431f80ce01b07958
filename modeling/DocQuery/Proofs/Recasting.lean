import DocQuery.Proofs.Calls

/-! Drafts recast for another command.

`Draft.recast` makes a draft of one command into a draft of another, as if it had been started so.
Every call does the same before and after recasting (`apply_recast`), and so does freezing, apart
from the command that an error names (`freeze_recast`). So it makes no difference whether a draft is
recast before a sequence of calls or after it (`actAll_recast`). -/
namespace DocQuery

theorem Command.operation_ne_exec (command : Command) : command.operation ≠ .exec := by
  cases command <;> decide

theorem Command.ne_select_of_needsFilter {command : Command} (h : command.needsFilter = true) :
    command ≠ .select := by
  rintro rfl
  exact nomatch h

/-! ### Recasting -/

/-- The error that a draft of the command has in place of this one. -/
def DraftError.recast (command : Command) : DraftError → DraftError
  | .missingFilter document _ => .missingFilter document command
  | e => e

def Container.withOperation (operation : Operation) (c : Container) : Container :=
  { c with operation := operation }

namespace Draft

variable {d d' : Draft} {command : Command} {mark : FieldPath}

/-- The draft as one of the command: its first container does what the command does, and deleted
rows are marked in the field. -/
def recast (command : Command) (mark : FieldPath) (d : Draft) : Draft :=
  { d with
    command := command
    containers := d.containers.modifyHead (Container.withOperation command.operation)
    deletedField := some mark
    plan := d.plan.map fun outcome => outcome.mapError (DraftError.recast command) }

theorem find?_withOperation {β : Type} {f : Container → β} {p : Container → Bool} {operation : Operation}
    (hf : ∀ c : Container, f (c.withOperation operation) = f c)
    (hp : ∀ c : Container, p (c.withOperation operation) = p c) (containers : List Container) :
    ((containers.modifyHead (Container.withOperation operation)).find? p).map f = (containers.find? p).map f := by
  cases containers with
  | nil => rfl
  | cons c rest =>
    rw [List.modifyHead_cons, List.find?_cons, List.find?_cons, hp]
    cases p c with
    | true => exact congrArg some (hf c)
    | false => rfl

theorem container?_recast {β : Type} {f : Container → β}
    (hf : ∀ c : Container, f (c.withOperation command.operation) = f c) (qualifier : String) :
    ((d.recast command mark).container? qualifier).map f = (d.container? qualifier).map f :=
  find?_withOperation hf (fun _ => rfl) d.containers

theorem alike_recast : Alike d (d.recast command mark) :=
  ⟨rfl, rfl, container?_recast (f := Container.document) fun _ => rfl⟩

theorem conditionOf_recast (target : Target) :
    (d.recast command mark).conditionOf target = d.conditionOf target := by
  cases target with
  | filter => rfl
  | connect qualifier =>
    exact congrArg (fun o => o.getD []) (container?_recast (f := Container.connect) (fun _ => rfl) qualifier)

theorem modifyTarget_recast (f : List (FlatTerm Predicate) → List (FlatTerm Predicate)) (target : Target) :
    (d.recast command mark).modifyTarget f target = (d.modifyTarget f target).recast command mark := by
  cases target with
  | filter => rfl
  | connect qualifier =>
    have hhead : ∀ containers : List Container,
        (containers.modifyHead (Container.withOperation command.operation)).map (fun c =>
          if c.qualifier = qualifier then { c with connect := f c.connect } else c) =
        (containers.map fun c => if c.qualifier = qualifier then { c with connect := f c.connect } else c).modifyHead
          (Container.withOperation command.operation) := by
      intro containers
      cases containers with
      | nil => rfl
      | cons c rest =>
        simp only [List.modifyHead_cons, List.map_cons, Container.withOperation]
        split <;> rfl
    simp only [modifyTarget, recast, hhead]

theorem push_recast (target : Target) (p : Predicate) :
    (d.recast command mark).push target p = (d.push target p).recast command mark :=
  congrArg (fun x : Draft => { x with cursor := { last := some target } }) (modifyTarget_recast _ target)

theorem checkOpen_recast : (d.recast command mark).checkOpen = d.checkOpen := by
  unfold checkOpen isFrozen recast
  rw [Option.isSome_map]

theorem primary?_recast :
    (d.recast command mark).primary?.map Container.qualifier = d.primary?.map Container.qualifier :=
  find?_withOperation (fun _ => rfl) (fun _ => rfl) d.containers

theorem primaryAlias_recast : (d.recast command mark).primaryAlias = d.primaryAlias := by
  unfold primaryAlias
  rcases cases_of_map_eq (primary?_recast (d := d)) with ⟨hc', hc⟩ | ⟨c', c, hc', hc, hqualifier⟩
  · rw [hc, hc']
    rfl
  · rw [hc, hc']
    exact congrArg Except.ok hqualifier

/-! ### Calls -/

theorem container_recast (qualifier : String) :
    discard ((d.recast command mark).container qualifier) = discard (d.container qualifier) := by
  unfold container
  rcases cases_of_map_eq (container?_recast (d := d) (f := Container.document) (fun _ => rfl) qualifier) with
    ⟨hc', hc⟩ | ⟨c', c, hc', hc, -⟩
  · rw [hc, hc']
    rfl
  · rw [hc, hc']
    rfl

theorem compare_recast (clause : Clause) (qualifier : String) (field : Selector) (op : Operator) (right : Comparand) :
    (d.recast command mark).compare clause qualifier field op right =
      recast command mark <$> d.compare clause qualifier field op right := by
  cases clause with
  | filter =>
    simp only [compare, reduceCtorEq, if_false, checkOpen_recast, alike_recast.resolve, alike_recast.predicate,
      push_recast, map_bind, map_pure]
  | connect =>
    simp only [compare, if_true, container_recast, checkOpen_recast, alike_recast.resolve, alike_recast.predicate,
      push_recast, map_bind, map_pure]

theorem closeGroup_recast : (d.recast command mark).closeGroup = recast command mark <$> d.closeGroup := by
  have hcursor : (d.recast command mark).cursor = d.cursor := rfl
  have hdocument : (d.recast command mark).document = d.document := rfl
  unfold closeGroup
  simp only [conditionOf_recast, modifyTarget_recast, hcursor, hdocument]
  split
  · rfl
  · split
    · rfl
    · split <;> rfl

/-- A container that is added is never the first. -/
theorem addContainer_recast (h : d.containers ≠ []) (c : Container) :
    (d.recast command mark).addContainer c = recast command mark <$> d.addContainer c := by
  have hcontainer : ((d.recast command mark).container? c.qualifier).map (fun _ => ()) =
      (d.container? c.qualifier).map fun _ => () := container?_recast (fun _ => rfl) c.qualifier
  have hsome : ((d.recast command mark).container? c.qualifier).isSome = (d.container? c.qualifier).isSome := by
    simpa using congrArg Option.isSome hcontainer
  obtain ⟨first, rest, hcontainers⟩ := List.exists_cons_of_ne_nil h
  unfold addContainer
  rw [hsome]
  split
  · rfl
  · simp [recast, hcontainers]

theorem declare_recast (p : Parameter) :
    (d.recast command mark).declare p = recast command mark <$> d.declare p := by
  unfold declare
  show (if d.params.any (fun q => q.name == p.name) then _ else _) = _
  split <;> rfl

theorem project_recast (marker : Marker) (given : Option String) (field : Selector) (name : Option String) :
    (d.recast command mark).project marker given field name =
      recast command mark <$> d.project marker given field name := by
  cases given with
  | none =>
    simp only [project, primaryAlias_recast, checkOpen_recast, alike_recast.resolve, map_bind, map_pure]
    rfl
  | some qualifier =>
    simp only [project, checkOpen_recast, alike_recast.resolve, map_bind, map_pure]
    rfl

theorem sortBy_recast (qualifier : String) (field : Selector) (direction : Direction) :
    (d.recast command mark).sortBy qualifier field direction =
      recast command mark <$> d.sortBy qualifier field direction := by
  simp only [sortBy, alike_recast.resolve, map_bind]
  refine bind_congr fun path => bind_congr fun _ => ?_
  split <;> rfl

theorem aggregate_recast (qualifier : String) (field : Selector) (op : Aggregate) (name : Option String) :
    (d.recast command mark).aggregate qualifier field op name =
      recast command mark <$> d.aggregate qualifier field op name := by
  simp only [aggregate, alike_recast.resolve, map_bind]
  refine bind_congr fun path => bind_congr fun _ => ?_
  split <;> rfl

/-- Every call comes to the same before and after recasting. -/
theorem apply_recast (h : d.containers ≠ []) (e : Edit) :
    (d.recast command mark).apply e = recast command mark <$> d.apply e := by
  cases e with
  | compare clause qualifier field op right => exact compare_recast clause qualifier field op right
  | project marker given field name => exact project_recast marker given field name
  | addContainer c => simp only [apply, checkOpen_recast, addContainer_recast h, map_bind]
  | closeGroup => simp only [apply, checkOpen_recast, closeGroup_recast, map_bind]
  | declare p => simp only [apply, checkOpen_recast, declare_recast, map_bind]
  | sortBy qualifier field direction => simp only [apply, checkOpen_recast, sortBy_recast, map_bind]
  | aggregate qualifier field op name => simp only [apply, checkOpen_recast, aggregate_recast, map_bind]
  | joinNext _ | openGroup | skip _ | take _ =>
    simp only [apply, checkOpen_recast, map_bind, map_pure]
    rfl

/-! ### Freezing -/

/-- The first container is the draft's own and does what the command does. -/
def Own (d : Draft) : Prop :=
  ∃ c rest, d.containers = c :: rest ∧ c.join = none ∧ c.operation = d.command.operation

theorem Own.kept (h : d.Own) (hkept : Kept d d') : d'.Own := by
  obtain ⟨c, rest, hcontainers, hjoin, hoperation⟩ := h
  obtain ⟨more, hmore⟩ := hkept.containers
  rw [hcontainers] at hmore
  obtain ⟨c', rest', hcontainers', hbare, -⟩ := List.map_eq_cons_iff.mp hmore.symm
  refine ⟨c', rest', hcontainers', ?_, ?_⟩
  · exact (congrArg Container.join hbare).trans hjoin
  · rw [hkept.command]
    exact (congrArg Container.operation hbare).trans hoperation

theorem own_forDocument (schema : Schema) (document : Document) (command : Command) :
    (forDocument schema document command).Own :=
  ⟨_, [], rfl, rfl, rfl⟩

/-! Only the check for a filter names the command. The errors of the other checks are the same for
every command, and so are their outcomes. -/

theorem recast_checkPrimary : d.checkPrimary.mapError (DraftError.recast command) = d.checkPrimary := by
  unfold checkPrimary
  split <;> rfl

theorem recast_checkContainer (c : Container) :
    (d.checkContainer c).mapError (DraftError.recast command) = d.checkContainer c := by
  unfold checkContainer
  split
  · rfl
  · split <;> rfl

theorem recast_decodeCondition (terms : List (FlatTerm Predicate)) :
    (d.decodeCondition terms).mapError (DraftError.recast command) = d.decodeCondition terms := by
  unfold decodeCondition
  cases Flat.decode terms <;> rfl

theorem recast_usedParam (p : Predicate) :
    (d.usedParam p).mapError (DraftError.recast command) = d.usedParam p := by
  unfold usedParam
  split
  · rfl
  · split
    · rfl
    · next q _ =>
      cases p.field.checkParam _ q.kind <;> rfl

theorem recast_usedParams (predicates : List Predicate) :
    (d.usedParams predicates).mapError (DraftError.recast command) = d.usedParams predicates := by
  induction predicates with
  | nil => rfl
  | cons p rest ih =>
    simp only [usedParams, mapError_bind, recast_usedParam, ih]
    rfl

theorem recast_checkClauses : d.checkClauses.mapError (DraftError.recast command) = d.checkClauses := by
  unfold checkClauses
  split
  · rfl
  · split <;> rfl

theorem checkPrimary_recast : (d.recast command mark).checkPrimary = d.checkPrimary := by
  unfold checkPrimary recast
  cases d.containers with
  | nil => rfl
  | cons c rest =>
    have hsame : (c.withOperation command.operation).isPrimary = c.isPrimary := rfl
    simp only [List.modifyHead_cons, List.filter_cons, hsame]
    cases c.isPrimary with
    | false => rfl
    | true => cases rest.filter Container.isPrimary <;> rfl

theorem checkContainers_recast (h : d.Own) :
    (d.recast command mark).containers.forM (d.recast command mark).checkContainer =
      d.containers.forM d.checkContainer := by
  obtain ⟨c, rest, hcontainers, -, hoperation⟩ := h
  have hfirst : d.checkContainer (c.withOperation command.operation) = d.checkContainer c := by
    have hc : c.operation ≠ .exec := hoperation ▸ d.command.operation_ne_exec
    simp [checkContainer, Container.withOperation, hc, command.operation_ne_exec]
  show (d.containers.modifyHead _).forM d.checkContainer = _
  rw [hcontainers]
  exact congrArg (fun x => x >>= fun _ => rest.forM d.checkContainer) hfirst

theorem decodeConditions_recast :
    ((d.recast command mark).containers.mapM fun c => (d.recast command mark).decodeCondition c.connect) =
      d.containers.mapM fun c => d.decodeCondition c.connect := by
  show ((d.containers.modifyHead _).mapM fun c => d.decodeCondition c.connect) = _
  cases d.containers with
  | nil => rfl
  | cons c rest =>
    rw [List.modifyHead_cons, List.mapM_cons, List.mapM_cons]
    rfl

/-- Freezing finds the same, apart from the command that an error names. -/
theorem makePlan_recast (h : d.Own) (hd : d.command.needsFilter = true) (hcommand : command.needsFilter = true) :
    (d.recast command mark).makePlan = d.makePlan.mapError (DraftError.recast command) := by
  have hclauses : (d.recast command mark).checkClauses = d.checkClauses := by
    unfold checkClauses
    rw [if_neg (Command.ne_select_of_needsFilter hd)]
    exact if_neg (Command.ne_select_of_needsFilter hcommand)
  have hneeds : (d.recast command mark).command.needsFilter = true := hcommand
  have hused : ∀ predicates, (d.recast command mark).usedParams predicates = d.usedParams predicates :=
    usedParams_congr rfl rfl
  unfold makePlan
  simp only [mapError_bind, recast_checkPrimary, mapError_forM recast_checkContainer, recast_decodeCondition,
    mapError_mapM fun c : Container => recast_decodeCondition c.connect, recast_usedParams, recast_checkClauses,
    checkPrimary_recast, checkContainers_recast h, decodeConditions_recast, hused, hclauses,
    apply_ite (Except.mapError (DraftError.recast command)), hd, hneeds]
  rfl

/-- Freezing a recast draft is recasting the frozen one. -/
theorem freeze_recast (h : d.Own) (hd : d.command.needsFilter = true) (hcommand : command.needsFilter = true) :
    (d.recast command mark).freeze.result = d.freeze.result.recast command mark := by
  cases hplan : d.plan with
  | some outcome =>
    have hrecast : (d.recast command mark).plan = some (outcome.mapError (DraftError.recast command)) := by
      rw [recast, hplan]
      rfl
    rw [freeze, freeze, hplan, hrecast]
  | none =>
    have hrecast : (d.recast command mark).plan = none := by
      rw [recast, hplan]
      rfl
    rw [freeze_open hplan, freeze_open hrecast, makePlan_recast h hd hcommand]
    rfl

theorem outcome_recast : (d.recast command mark).outcome = d.outcome.mapError (DraftError.recast command) := by
  unfold outcome recast
  rcases d.plan with _ | _ | _ <;> rfl

theorem plan?_recast : (d.recast command mark).plan? = d.plan? := by
  unfold plan? recast
  rcases d.plan with _ | _ | _ <;> rfl

/-! ### Sequences of calls -/

theorem act_recast (h : d.Own) (hd : d.command.needsFilter = true) (hcommand : command.needsFilter = true)
    (action : Action) : (d.recast command mark).act action = (d.act action).recast command mark := by
  cases action with
  | freeze => exact freeze_recast h hd hcommand
  | edit e =>
    have hne : d.containers ≠ [] := by
      obtain ⟨c, rest, hcontainers, -⟩ := h
      rw [hcontainers]
      exact List.cons_ne_nil c rest
    show (d.recast command mark).edit e = (d.edit e).recast command mark
    rw [edit, edit, apply_recast hne]
    cases d.apply e <;> rfl

theorem actAll_recast (h : d.Own) (hd : d.command.needsFilter = true) (hcommand : command.needsFilter = true)
    (actions : List Action) :
    (d.recast command mark).actAll actions = (d.actAll actions).recast command mark := by
  induction actions generalizing d with
  | nil => rfl
  | cons action rest ih =>
    have hkept := kept_act d action
    rw [actAll, act_recast h hd hcommand]
    exact ih (h.kept hkept) (hkept.command ▸ hd)

end Draft

end DocQuery
