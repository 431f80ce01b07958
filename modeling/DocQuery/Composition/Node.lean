import DocQuery.Condition.Check
import DocQuery.Condition.Predicate
import DocQuery.Text.LowerCase

/-! Compositions: trees of documents in which each node says how its rows belong to those
of the nodes above it.

A composition is the list of its nodes in the order in which they were added, the root
first, with an index of their names. Names are told apart without regard to letter case. A
node refers to its parent and its children by their places in the list; a parent's place is
less than that of its child, so the walk upwards ends (`ancestors`). -/
namespace DocQuery

inductive CompositionError where
  | duplicateNode (name : String)
  | noMatchingAncestor (node document : String)
  | ambiguousAncestor (node document : String) (candidates : List String)
  | unknownAncestor (node ancestor : String)
  | untypedAncestorField (node field : String)
  | missingParentValue (node field : String)
  | path (e : PathError)
  | condition (e : ConditionError)
  deriving DecidableEq, Repr

def CompositionError.message : CompositionError → String
  | duplicateNode name => "node name '" ++ name ++ "' is already used in this tree"
  | noMatchingAncestor node document =>
    "node '" ++ node ++ "': no ancestor is bound to " ++ document
  | ambiguousAncestor node document candidates =>
    "node '" ++ node ++ "': several ancestors are bound to " ++ document ++ ": " ++
      Text.bracketed (candidates.map Text.quoted)
  | unknownAncestor node ancestor =>
    "node '" ++ node ++ "': '" ++ ancestor ++ "' is not an ancestor"
  | untypedAncestorField node field =>
    "node '" ++ node ++ "': ancestor field '" ++ field ++ "' must be a typed field reference"
  | missingParentValue node field =>
    "node '" ++ node ++ "': parent record has no value for '" ++ field ++
      "' and no default is set"
  | path e => e.message
  | condition e => e.message

/-- What a node's field is compared with. -/
inductive LinkTarget where
  /-- A field of the ancestor of that name. -/
  | ancestor (name : String) (field : FieldPath)
  | const (v : Value)
  | param (name : String)

/-- A condition on the rows of a node. -/
structure Link where
  field : FieldPath
  op : Operator
  target : LinkTarget
  /-- Stands in for a value that an ancestor's record lacks. -/
  default : Option Value := none

structure Node where
  name : String
  document : Document
  parent : Option Nat
  /-- In the order in which they were added. -/
  children : List Nat := []
  links : List Link := []

/-- Both names are the same in lower case. -/
def sameName (a b : String) : Bool :=
  Text.lowerCase a == Text.lowerCase b

structure Composition where
  schema : Schema
  nodes : List Node
  /-- The places of the nodes by their names in lower case. -/
  places : List (String × Nat)

namespace Composition

def node? (c : Composition) (i : Nat) : Option Node :=
  c.nodes[i]?

/-- The place of the node with that name, in any letter case. -/
def find? (c : Composition) (name : String) : Option Nat :=
  c.places.lookup (Text.lowerCase name)

def parent? (c : Composition) (i : Nat) : Option Nat := do
  (← c.node? i).parent

/-- The places of the nodes above a node, nearest first. -/
def ancestors (c : Composition) (i : Nat) : List Nat :=
  match c.parent? i with
  | some p => if p < i then p :: ancestors c p else []
  | none => []
termination_by i

/-- The nodes above a node, nearest first, with their places. -/
def ancestorNodes (c : Composition) (i : Nat) : List (Nat × Node) :=
  (c.ancestors i).filterMap fun a => (c.node? a).map fun n => (a, n)

end Composition

end DocQuery
