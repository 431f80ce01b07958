import DocQuery.Operation.Draft

/-! Editing a draft in place.

`Edit.perform` makes an edit on a draft that is kept as a state. A write outlives an error that
comes after it, so an edit that fails leaves the draft as it was only because all it asks is asked
before it writes. `Draft.apply` is the same edit on a draft as a value. -/
namespace DocQuery

/-- Computations that change a draft and may fail. -/
abbrev Editing := ExceptT DraftError (StateM Draft)

namespace Editing

/-- Asks something of the draft as it stands. -/
def ask {α : Type} (question : Draft → Except DraftError α) : Editing α := do
  match question (← get) with
  | .ok a => return a
  | .error e => throw e

/-- Takes from the cursor what it says about the next condition. -/
def takeCursor : Editing (Bool × Nat) := do
  let cursor := (← get).cursor
  modify fun d => { d with cursor := { d.cursor with byOr := false, opens := 0 } }
  return (cursor.byOr, cursor.opens)

/-- Adds a condition to the target as the cursor says. -/
def push (target : Target) (p : Predicate) : Editing Unit := do
  let (byOr, opens) ← takeCursor
  let term : FlatTerm Predicate := { item := p, byOr := byOr, connect := target != .filter, delta := opens }
  modify fun d => d.modifyTarget (fun terms => terms ++ [term]) target
  modify fun d => { d with cursor := { d.cursor with last := some target } }

/-- Closes a group of the target after its last condition. -/
def closeIn (target : Target) : Editing Unit := do
  let d ← get
  if 0 < Flat.depth (d.conditionOf target) then modify fun d => d.modifyTarget Flat.closeLast target
  else throw (.unbalancedGroup d.document.path)

/-- Closes a group after the last condition, if none is waiting to be opened. -/
def close : Editing Unit := do
  let d ← get
  if 0 < d.cursor.opens then throw (.unbalancedGroup d.document.path)
  else match d.cursor.last with
    | none => throw (.unbalancedGroup d.document.path)
    | some target => closeIn target

/-- The field of a container, which can be asked for in a query. -/
def queryable (qualifier : String) (field : Selector) : Editing FieldPath := do
  let path ← ask fun d => d.resolve qualifier field
  ask fun _ => path.checkQueryable.mapError .condition
  return path

end Editing

open Editing (ask push close queryable)

/-- Makes the edit on the draft that is kept. -/
def Edit.perform : Edit → Editing Unit
  | .addContainer c => do
    ask Draft.checkOpen
    let d ← get
    if (d.container? c.qualifier).isSome then throw (.duplicateAlias d.document.path c.qualifier)
    else modify fun d => { d with containers := d.containers ++ [c] }
  | .compare clause qualifier field op right => do
    if clause = .connect then discard (ask fun d => d.container qualifier)
    ask Draft.checkOpen
    let left ← ask fun d => d.resolve qualifier field
    let p ← ask fun d => d.predicate qualifier left op right
    push (Draft.targetOf qualifier clause) p
  | .joinNext j => do
    ask Draft.checkOpen
    modify fun d => { d with cursor := { d.cursor with byOr := j == .or } }
  | .openGroup => do
    ask Draft.checkOpen
    modify Draft.openGroup
  | .closeGroup => do
    ask Draft.checkOpen
    close
  | .declare p => do
    ask Draft.checkOpen
    let d ← get
    if d.params.any fun q => q.name == p.name then throw (.duplicateParameter d.document.path p.name)
    else modify fun d => { d with params := d.params ++ [p] }
  | .project marker qualifier field name => do
    let qualifier ← match qualifier with
      | some qualifier => pure qualifier
      | none => ask Draft.primaryAlias
    ask Draft.checkOpen
    let path ← queryable qualifier field
    modify fun d => { d with
      projection := d.projection ++ [⟨marker, name.getD path.dotted, qualifier, path⟩] }
  | .sortBy qualifier field direction => do
    ask Draft.checkOpen
    let path ← queryable qualifier field
    if path.kind.isOrderable then
      modify fun d => { d with sort := d.sort ++ [⟨qualifier, path, direction⟩] }
    else throw (.notOrderable ((← get).onPath path))
  | .aggregate qualifier field op name => do
    ask Draft.checkOpen
    let path ← queryable qualifier field
    if op.supports path.kind then
      modify fun d => { d with aggregates := d.aggregates ++ [⟨qualifier, path, op, name⟩] }
    else throw (.notAggregatable ((← get).onPath path) op)
  | .skip n => do
    ask Draft.checkOpen
    modify fun d => { d with page := { d.page with skip := some n } }
  | .take n => do
    ask Draft.checkOpen
    modify fun d => { d with page := { d.page with take := some n } }

end DocQuery
