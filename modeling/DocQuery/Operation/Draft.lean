import DocQuery.Condition.Check
import DocQuery.Metrics.Event
import DocQuery.Operation.Clause
import DocQuery.Parameter

/-! Drafts: operations while they are being declared.

A draft is changed by `Edit`s. `Draft.apply` checks an edit and gives the changed draft
or the reason why there is none, so that an edit that fails changes nothing. A cursor
keeps what was said about the next condition: the joiner before it and the groups to open
at it. Once a draft is frozen every edit fails. -/
namespace DocQuery

inductive DraftError where
  | path (e : PathError)
  | condition (e : ConditionError)
  | unknownAlias (document qualifier : String)
  | duplicateAlias (document qualifier : String)
  | missingPrimary (document : String)
  | duplicatePrimary (document qualifier : String)
  | missingFilter (document : String) (command : Command)
  | frozen (document : String)
  | notOrderable (place : Place)
  | notAggregatable (place : Place) (op : Aggregate)
  | unknownParameter (document name : String)
  | duplicateParameter (document name : String)
  | unbalancedGroup (document : String)
  | missingRole (document role : String)
  | missingConnect (document qualifier : String)
  | notExecutable (document qualifier : String) (kind : ContainerKind)
  | selectOnly (document clause : String)
  deriving DecidableEq, Repr

def DraftError.message : DraftError → String
  | path e => e.message
  | condition e => e.message
  | unknownAlias d qualifier => d ++ ": unknown container alias '" ++ qualifier ++ "'"
  | duplicateAlias d qualifier => d ++ ": container alias '" ++ qualifier ++ "' is declared twice"
  | missingPrimary d => d ++ ": operation has no primary container"
  | duplicatePrimary d qualifier =>
    d ++ ": container '" ++ qualifier ++ "' is a second primary container"
  | missingFilter d command =>
    d ++ ": " ++ command.name ++ " requires at least one filter condition"
  | frozen d => d ++ ": builder is normalized and can no longer be modified"
  | notOrderable p => p.document ++ ": field '" ++ p.field ++ "' cannot be sorted"
  | notAggregatable p op =>
    p.document ++ ": aggregate " ++ op.name ++ " is not supported on field '" ++ p.field ++ "'"
  | unknownParameter d name => d ++ ": unknown parameter '" ++ name ++ "'"
  | duplicateParameter d name => d ++ ": parameter '" ++ name ++ "' is declared twice"
  | unbalancedGroup d => d ++ ": begin()/end() groups are unbalanced"
  | missingRole d role => d ++ ": document declares no field with the " ++ role ++ " role"
  | missingConnect d qualifier =>
    d ++ ": joined container '" ++ qualifier ++ "' has no connect condition"
  | notExecutable d qualifier kind =>
    d ++ ": container '" ++ qualifier ++ "' cannot execute a " ++ kind.name
  | selectOnly d clause => d ++ ": " ++ clause ++ " is only valid on select operations"

/-- The condition that something is added to. -/
inductive Target where
  | filter
  /-- The condition that connects the container. -/
  | connect (qualifier : String)
  deriving DecidableEq, Repr

/-- What waits for the next condition. -/
structure Cursor where
  byOr : Bool := false
  /-- The groups to open. -/
  opens : Nat := 0
  /-- Where the last condition went. -/
  last : Option Target := none
  deriving DecidableEq, Repr

/-- What a frozen draft says, checked as a whole. -/
structure Plan where
  filter : Option (Tree Predicate)
  /-- The condition that connects each container, if any. -/
  connects : List (Option (Tree Predicate))
  /-- The parameters that some condition refers to. -/
  used : List String

structure Draft where
  schema : Schema
  document : Document
  command : Command
  containers : List Container := []
  filter : List (FlatTerm Predicate) := []
  params : List Parameter := []
  projection : List Projection := []
  sort : List SortKey := []
  aggregates : List Aggregation := []
  page : Page := {}
  deletedField : Option FieldPath := none
  cursor : Cursor := {}
  /-- The outcome of freezing, once the draft is frozen. -/
  plan : Option (Except DraftError Plan) := none

/-! ### Edits -/

/-- The right-hand side of a condition that is being declared. -/
inductive Comparand where
  | field (qualifier : String) (field : Selector)
  | const (v : Value) (foldCase : Bool)
  | param (name : String) (foldCase : Bool)

/-- Which condition a comparison belongs to. -/
inductive Clause where
  | filter
  /-- The one that connects the container of the compared field. -/
  | connect
  deriving DecidableEq, Repr

inductive Edit where
  | addContainer (c : Container)
  | compare (clause : Clause) (qualifier : String) (field : Selector) (op : Operator)
      (right : Comparand)
  /-- Sets how the next condition is joined. -/
  | joinNext (j : Joiner)
  /-- Opens a group before the next condition. -/
  | openGroup
  /-- Closes a group after the last condition. -/
  | closeGroup
  | declare (p : Parameter)
  /-- Without a qualifier, a field of the primary container. -/
  | project (marker : Marker) (qualifier : Option String) (field : Selector)
      (name : Option String)
  | sortBy (qualifier : String) (field : Selector) (direction : Direction)
  | aggregate (qualifier : String) (field : Selector) (op : Aggregate) (name : Option String)
  | skip (n : UInt64)
  | take (n : UInt64)

namespace Draft

/-- A draft without containers. -/
def empty (schema : Schema) (d : Document) (command : Command) : Draft :=
  { schema := schema, document := d, command := command }

/-- A draft whose primary container is the document itself. -/
def forDocument (schema : Schema) (d : Document) (command : Command) : Draft :=
  { empty schema d command with containers := [.primary d command.operation] }

/-- The same for a command that marks deleted rows, with the field that holds the mark. -/
def withDeletedField (schema : Schema) (d : Document) (command : Command) :
    Except DraftError Draft :=
  match d.deleted? with
  | none => .error (.missingRole d.path "deleted")
  | some f =>
    match FieldPath.resolve schema d f.name with
    | .error e => .error (.path e)
    | .ok path => .ok { forDocument schema d command with deletedField := some path }

/-- The usual draft of a command on a document. -/
def start (schema : Schema) (d : Document) : Command → Except DraftError Draft
  | .softDelete => withDeletedField schema d .softDelete
  | .restore => withDeletedField schema d .restore
  | command => .ok (forDocument schema d command)

/-! ### Looking up -/

def container? (d : Draft) (qualifier : String) : Option Container :=
  d.containers.find? fun c => c.qualifier == qualifier

def primary? (d : Draft) : Option Container :=
  d.containers.find? Container.isPrimary

def isFrozen (d : Draft) : Bool :=
  d.plan.isSome

def checkOpen (d : Draft) : Except DraftError Unit :=
  if d.isFrozen then .error (.frozen d.document.path) else .ok ()

def container (d : Draft) (qualifier : String) : Except DraftError Container :=
  match d.container? qualifier with
  | some c => .ok c
  | none => .error (.unknownAlias d.document.path qualifier)

/-- The field that a selector names in the container. -/
def resolve (d : Draft) (qualifier : String) (field : Selector) : Except DraftError FieldPath := do
  let c ← d.container qualifier
  (field.resolve d.schema c.document).mapError .path

def onPath (d : Draft) (path : FieldPath) : Place :=
  ⟨d.document.path, path.dotted⟩

/-! ### Conditions -/

/-- The comparison of a field with its right-hand side, if the two go together. -/
def predicate (d : Draft) (qualifier : String) (left : FieldPath) (op : Operator) :
    Comparand → Except DraftError Predicate
  | .field otherAlias other => do
    let right ← d.resolve otherAlias other
    (left.checkFieldPair op right).mapError .condition
    return { qualifier := qualifier, field := left, op := op, operand := .field otherAlias right }
  | .const v foldCase => do
    (left.checkOperator op foldCase).mapError .condition
    (left.checkLiteral op v).mapError .condition
    return { qualifier := qualifier, field := left, op := op
             operand := if op.isNullary then .none else .const v, foldCase := foldCase }
  | .param name foldCase => do
    (left.checkOperator op foldCase).mapError .condition
    if op.isNullary then
      .error (.condition (.operatorNotSupported (d.onPath left) op "parameter"))
    else
      return { qualifier := qualifier, field := left, op := op, operand := .param name
               foldCase := foldCase }

/-- Changes the flat condition of a target. -/
def modifyTarget (d : Draft) (f : List (FlatTerm Predicate) → List (FlatTerm Predicate)) :
    Target → Draft
  | .filter => { d with filter := f d.filter }
  | .connect qualifier =>
    { d with
      containers := d.containers.map fun c =>
        if c.qualifier = qualifier then { c with connect := f c.connect } else c }

/-- The flat condition of a target. -/
def conditionOf (d : Draft) : Target → List (FlatTerm Predicate)
  | .filter => d.filter
  | .connect qualifier => ((d.container? qualifier).map Container.connect).getD []

/-- Adds a condition as the cursor says, and clears the cursor. -/
def push (d : Draft) (target : Target) (p : Predicate) : Draft :=
  let term : FlatTerm Predicate :=
    { item := p, byOr := d.cursor.byOr, connect := target != .filter, delta := d.cursor.opens }
  { d.modifyTarget (fun terms => terms ++ [term]) target with
    cursor := { last := some target } }

def targetOf (qualifier : String) : Clause → Target
  | .filter => .filter
  | .connect => .connect qualifier

def compare (d : Draft) (clause : Clause) (qualifier : String) (field : Selector) (op : Operator)
    (right : Comparand) : Except DraftError Draft := do
  if clause = .connect then discard (d.container qualifier)
  d.checkOpen
  let left ← d.resolve qualifier field
  let p ← d.predicate qualifier left op right
  return d.push (targetOf qualifier clause) p

def openGroup (d : Draft) : Draft :=
  { d with cursor := { d.cursor with opens := d.cursor.opens + 1 } }

/-- Closes a group after the last condition; one must be open there, and none may be
waiting to be opened. -/
def closeGroup (d : Draft) : Except DraftError Draft :=
  let unbalanced := DraftError.unbalancedGroup d.document.path
  if 0 < d.cursor.opens then .error unbalanced
  else match d.cursor.last with
    | none => .error unbalanced
    | some target =>
      if 0 < Flat.depth (d.conditionOf target) then
        .ok (d.modifyTarget Flat.closeLast target)
      else .error unbalanced

/-! ### The other clauses -/

def addContainer (d : Draft) (c : Container) : Except DraftError Draft :=
  if (d.container? c.qualifier).isSome then .error (.duplicateAlias d.document.path c.qualifier)
  else .ok { d with containers := d.containers ++ [c] }

def declare (d : Draft) (p : Parameter) : Except DraftError Draft :=
  if d.params.any fun q => q.name == p.name then
    .error (.duplicateParameter d.document.path p.name)
  else .ok { d with params := d.params ++ [p] }

def primaryAlias (d : Draft) : Except DraftError String :=
  match d.primary? with
  | some c => .ok c.qualifier
  | none => .error (.missingPrimary d.document.path)

def project (d : Draft) (marker : Marker) (qualifier : Option String) (field : Selector)
    (name : Option String) : Except DraftError Draft := do
  let qualifier ← match qualifier with
    | some qualifier => .ok qualifier
    | none => d.primaryAlias
  d.checkOpen
  let path ← d.resolve qualifier field
  path.checkQueryable.mapError .condition
  return { d with
    projection := d.projection ++ [⟨marker, name.getD path.dotted, qualifier, path⟩] }

def sortBy (d : Draft) (qualifier : String) (field : Selector) (direction : Direction) :
    Except DraftError Draft := do
  let path ← d.resolve qualifier field
  path.checkQueryable.mapError .condition
  if path.kind.isOrderable then
    return { d with sort := d.sort ++ [⟨qualifier, path, direction⟩] }
  else .error (.notOrderable (d.onPath path))

def aggregate (d : Draft) (qualifier : String) (field : Selector) (op : Aggregate)
    (name : Option String) : Except DraftError Draft := do
  let path ← d.resolve qualifier field
  path.checkQueryable.mapError .condition
  if op.supports path.kind then
    return { d with aggregates := d.aggregates ++ [⟨qualifier, path, op, name⟩] }
  else .error (.notAggregatable (d.onPath path) op)

/-! ### Applying edits -/

/-- The draft after an edit. -/
def apply (d : Draft) : Edit → Except DraftError Draft
  | .compare clause qualifier field op right => d.compare clause qualifier field op right
  | .project marker qualifier field name => d.project marker qualifier field name
  | .addContainer c => do d.checkOpen; d.addContainer c
  | .joinNext j => do
    d.checkOpen
    return { d with cursor := { d.cursor with byOr := j == .or } }
  | .openGroup => do d.checkOpen; return d.openGroup
  | .closeGroup => do d.checkOpen; d.closeGroup
  | .declare p => do d.checkOpen; d.declare p
  | .sortBy qualifier field direction => do d.checkOpen; d.sortBy qualifier field direction
  | .aggregate qualifier field op name => do d.checkOpen; d.aggregate qualifier field op name
  | .skip n => do d.checkOpen; return { d with page := { d.page with skip := some n } }
  | .take n => do d.checkOpen; return { d with page := { d.page with take := some n } }

/-- The draft after an edit, or the same draft if the edit fails. -/
def edit (d : Draft) (e : Edit) : Draft :=
  match d.apply e with
  | .ok d => d
  | .error _ => d

/-- The draft after some edits, of which those that fail are passed over. -/
def editAll (d : Draft) : List Edit → Draft
  | [] => d
  | e :: rest => (d.edit e).editAll rest

end Draft

end DocQuery
