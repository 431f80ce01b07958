import DocQuery.Operation.Draft

/-! Freezing a draft.

The first freezing checks the draft as a whole and keeps the outcome, a plan or an error;
from then on the draft stays as it is. A plan holds the conditions as trees and the names
of the parameters they refer to. -/
namespace DocQuery.Draft

/-- There is exactly one primary container. -/
def checkPrimary (d : Draft) : Except DraftError Unit :=
  match d.containers.filter Container.isPrimary with
  | [] => .error (.missingPrimary d.document.path)
  | [_] => .ok ()
  | _ :: second :: _ => .error (.duplicatePrimary d.document.path second.qualifier)

/-- The container can do its operation and is connected if its join needs that. -/
def checkContainer (d : Draft) (c : Container) : Except DraftError Unit :=
  if c.operation == .exec && !c.kind.isExecutable then
    .error (.notExecutable d.document.path c.qualifier c.kind)
  else if c.join.any Join.needsConnect && c.connect.isEmpty then
    .error (.missingConnect d.document.path c.qualifier)
  else .ok ()

/-- The tree of a flat condition of the draft. -/
def decodeCondition (d : Draft) (terms : List (FlatTerm Predicate)) :
    Except DraftError (Option (Tree Predicate)) :=
  (Flat.decode terms).mapError fun _ => .unbalancedGroup d.document.path

/-- The parameter of a predicate, declared and of a kind that suits the field. -/
def usedParam (d : Draft) (p : Predicate) : Except DraftError (Option String) :=
  match p.operand.param? with
  | none => .ok none
  | some name =>
    match d.params.find? fun q => q.name == name with
    | none => .error (.unknownParameter d.document.path name)
    | some q => do
      (p.field.checkParam name q.kind).mapError .condition
      return some name

/-- The parameters of the predicates in order. -/
def usedParams (d : Draft) : List Predicate → Except DraftError (List String)
  | [] => .ok []
  | p :: rest => do
    let name ← d.usedParam p
    let names ← d.usedParams rest
    return name.toList ++ names

/-- The first clause of the draft that only a select may have. -/
def selectOnlyClause? (d : Draft) : Option String :=
  if !d.page.isEmpty then some "skip/take"
  else if !d.sort.isEmpty then some "sort"
  else if !d.aggregates.isEmpty then some "aggregate"
  else none

def checkClauses (d : Draft) : Except DraftError Unit :=
  if d.command = .select then .ok ()
  else match d.selectOnlyClause? with
    | some clause => .error (.selectOnly d.document.path clause)
    | none => .ok ()

/-- The predicates of all conditions: the filter's and then those of each connection. -/
def predicates (filter : Option (Tree Predicate)) (connects : List (Option (Tree Predicate))) :
    List Predicate :=
  (filter :: connects).flatMap fun t => (t.map Tree.leaves).getD []

/-- What the draft says, if it makes sense as a whole. -/
def makePlan (d : Draft) : Except DraftError Plan := do
  d.checkPrimary
  d.containers.forM d.checkContainer
  if d.cursor.opens ≠ 0 then .error (.unbalancedGroup d.document.path)
  let filter ← d.decodeCondition d.filter
  let connects ← d.containers.mapM fun c => d.decodeCondition c.connect
  if d.command.needsFilter && filter.isNone then
    .error (.missingFilter d.document.path d.command)
  let used ← d.usedParams (predicates filter connects)
  d.checkClauses
  return { filter := filter, connects := connects, used := used }

/-- Freezes the draft; one that is frozen stays as it is. -/
def freeze (d : Draft) : Traced Draft :=
  match d.plan with
  | some _ => { result := d }
  | none =>
    let plan := d.makePlan
    { result := { d with plan := some plan }
      events := [.frozen d.document.path plan.toOption.isSome] }

/-- The error that freezing ended in, if the draft is frozen and it did. -/
def outcome (d : Draft) : Except DraftError Unit :=
  match d.plan with
  | some (.error e) => .error e
  | _ => .ok ()

/-- The plan of a draft that was frozen without error. -/
def plan? (d : Draft) : Option Plan :=
  d.plan.bind Except.toOption

def filterTree? (d : Draft) : Option (Tree Predicate) :=
  d.plan?.bind Plan.filter

/-- The condition that connects the container. -/
def connectTree? (d : Draft) (qualifier : String) : Option (Tree Predicate) := do
  let i ← d.containers.findIdx? fun c => c.qualifier == qualifier
  (← d.plan?).connects[i]?.join

/-- The declared parameters without values, each marked if a condition refers to it. -/
def paramSet (d : Draft) : ParamSet :=
  let used := (d.plan?.map Plan.used).getD []
  { declared := d.params.map fun p => { p with used := used.contains p.name } }

end DocQuery.Draft
