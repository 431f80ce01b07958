import DocQuery.Condition.Flat
import DocQuery.Condition.Predicate
import DocQuery.Operation.Command

/-! The parts of an operation: containers, projection, order, aggregates and page. -/
namespace DocQuery

/-! ### Containers -/

/-- The storage object that a container stands for. -/
inductive ContainerKind where
  | table
  | view
  | function
  | procedure
  deriving DecidableEq, Repr

namespace ContainerKind

def all : List ContainerKind :=
  [table, view, function, procedure]

/-- Is a routine, which can be run. -/
def isExecutable : ContainerKind → Bool
  | function | procedure => true
  | table | view => false

def name : ContainerKind → String
  | table => "Table"
  | view => "View"
  | function => "Function"
  | procedure => "Procedure"

end ContainerKind

/-- How a container is joined to those before it. -/
inductive Join where
  | inner
  | left
  | cross
  | unwind
  deriving DecidableEq, Repr

namespace Join

def all : List Join :=
  [inner, left, cross, unwind]

def name : Join → String
  | inner => "Join"
  | left => "LeftJoin"
  | cross => "CrossJoin"
  | unwind => "Unwind"

/-- The join needs a condition that connects it. -/
def needsConnect : Join → Bool
  | inner | left => true
  | cross | unwind => false

end Join

/-- A named source or target of an operation. One that is not joined is primary. -/
structure Container where
  document : Document
  /-- The name by which conditions refer to the container. -/
  qualifier : String := ""
  storage : String
  kind : ContainerKind := .table
  operation : Operation
  join : Option Join := none
  /-- The condition that connects the container, as declared. -/
  connect : List (FlatTerm Predicate) := []

namespace Container

/-- A primary container for the document's own storage. -/
def primary (d : Document) (operation : Operation) : Container :=
  { document := d, storage := d.storage, operation := operation }

/-- A container that is read along with others. -/
def joined (d : Document) (join : Join) (qualifier : String) : Container :=
  { document := d, qualifier := qualifier, storage := d.storage, operation := .select,
    join := some join }

def isPrimary (c : Container) : Bool :=
  c.join.isNone

end Container

/-! ### Projection -/

inductive Marker where
  | include
  | exclude
  /-- Given if the backend has it. -/
  | optional
  deriving DecidableEq, Repr

namespace Marker

def all : List Marker :=
  [.include, .exclude, .optional]

def name : Marker → String
  | .include => "Include"
  | .exclude => "Exclude"
  | .optional => "Optional"

end Marker

structure Projection where
  marker : Marker
  /-- What the field is called in the result. -/
  name : String
  qualifier : String
  field : FieldPath

/-! ### Order, aggregates and page -/

inductive Direction where
  | ascending
  | descending
  deriving DecidableEq, Repr

namespace Direction

def all : List Direction :=
  [ascending, descending]

def name : Direction → String
  | ascending => "Asc"
  | descending => "Desc"

end Direction

structure SortKey where
  qualifier : String
  field : FieldPath
  direction : Direction

inductive Aggregate where
  | count
  | sum
  | min
  | max
  | avg
  deriving DecidableEq, Repr

namespace Aggregate

def all : List Aggregate :=
  [count, sum, min, max, avg]

def name : Aggregate → String
  | count => "Count"
  | sum => "Sum"
  | min => "Min"
  | max => "Max"
  | avg => "Avg"

def needsNumber : Aggregate → Bool
  | sum | avg => true
  | count | min | max => false

/-- Fields of the kind can be aggregated so. -/
def supports : Aggregate → FieldKind → Bool
  | count, _ => true
  | min, kind | max, kind => kind.isOrderable
  | sum, kind | avg, kind => kind.isNumeric

end Aggregate

structure Aggregation where
  qualifier : String
  field : FieldPath
  op : Aggregate
  name : Option String

structure Page where
  skip : Option UInt64 := none
  take : Option UInt64 := none
  deriving DecidableEq, Repr

def Page.isEmpty (p : Page) : Bool :=
  p.skip.isNone && p.take.isNone

end DocQuery
