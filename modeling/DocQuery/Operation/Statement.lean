import DocQuery.Operation.Freeze
import DocQuery.Sql.Compile

/-! Statements: what a backend is given to run.

A frozen draft is compiled to a statement. The conditions that connect its containers
come first, in the order of the containers, and then the filter; all share one count of
places. A statement is keyed when its filter can only hold for rows with a given
identifier. -/
namespace DocQuery

structure CompiledContainer where
  qualifier : String
  storage : String
  kind : ContainerKind
  operation : Operation
  join : Option Join
  /-- The text of the condition that connects the container. -/
  connect : Option String
  deriving DecidableEq, Repr

/-- The container with the text of the condition that connects it. -/
def Container.compiled (c : Container) (connect : Option String) : CompiledContainer :=
  { qualifier := c.qualifier, storage := c.storage, kind := c.kind, operation := c.operation
    join := c.join, connect := connect }

structure Statement where
  /-- The path of the document. -/
  document : String
  command : Command
  containers : List CompiledContainer
  filter : Option String
  params : List Value
  projection : List Projection
  sort : List SortKey
  aggregates : List Aggregation
  page : Page
  deletedField : Option FieldPath
  keyed : Bool

/-- The first container that is not joined. -/
def Statement.primary? (s : Statement) : Option CompiledContainer :=
  s.containers.find? fun c => c.join.isNone

/-! ### Keys -/

/-- The predicate gives the identifier of a row of the primary container. -/
def Predicate.pins (p : Predicate) (d : Document) (identifier qualifier : String) : Bool :=
  (p.op == .equal || p.op == .isIn) && (p.qualifier.isEmpty || p.qualifier == qualifier) &&
    p.field.steps.length == 1 && p.field.root.same d && p.field.leaf.name == identifier

namespace Tree

mutual

/-- Whether the tree holds only where some leaf with `pin` does: such a leaf itself, or a
conjunction with a member of which that is so. -/
def pinnedBy {α : Type} (pin : α → Bool) : Tree α → Bool
  | leaf a => pin a
  | node .and members => somePinnedBy pin members
  | node .or _ => false
  | group t => pinnedBy pin t

def somePinnedBy {α : Type} (pin : α → Bool) : List (Tree α) → Bool
  | [] => false
  | t :: rest => pinnedBy pin t || somePinnedBy pin rest

end

end Tree

namespace Draft

open Sql (Compile CompileError Dialect condition? render)

def isKeyed (d : Draft) (filter : Option (Tree Predicate)) : Bool :=
  match filter, d.document.identifier?, d.primary? with
  | some t, some identifier, some primary =>
    t.pinnedBy fun p => p.pins d.document identifier.name primary.qualifier
  | _, _, _ => false

/-! ### Compiling -/

/-- The containers with the texts of the conditions that connect them. -/
def compileContainers (dialect : Dialect) (params : ParamSet) :
    List (Container × Option (Tree Predicate)) → Compile (List CompiledContainer)
  | [] => return []
  | (c, connect) :: rest => do
    let tokens ← condition? dialect.numbered params connect
    let containers ← compileContainers dialect params rest
    return c.compiled (tokens.map (render dialect)) :: containers

/-- The containers and the text of the filter. -/
def compileConditions (d : Draft) (plan : Plan) (dialect : Dialect) (params : ParamSet) :
    Compile (List CompiledContainer × Option String) := do
  let containers ← compileContainers dialect params (d.containers.zip plan.connects)
  let tokens ← condition? dialect.numbered params plan.filter
  return (containers, tokens.map (render dialect))

def compilePlan (d : Draft) (plan : Plan) (dialect : Dialect) (params : ParamSet) :
    Except CompileError Statement :=
  match (d.compileConditions plan dialect params).run.run #[] with
  | (.error e, _) => .error e
  | (.ok (containers, filter), bound) =>
    .ok {
      document := d.document.path
      command := d.command
      containers := containers
      filter := filter
      params := bound.toList
      projection := d.projection
      sort := d.sort
      aggregates := d.aggregates
      page := d.page
      deletedField := d.deletedField
      keyed := d.isKeyed plan.filter }

/-- Compiles a draft that was frozen without error. -/
def compile (d : Draft) (dialect : Dialect) (params : ParamSet) :
    Traced (Except CompileError Statement) :=
  match d.plan? with
  | none => { result := .error (.notNormalized d.document.path) }
  | some plan =>
    let result := d.compilePlan plan dialect params
    { result := result, events := [.compiled d.document.path result.toOption.isSome] }

end Draft

end DocQuery
