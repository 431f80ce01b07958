import DocQuery.Composition.Node
import DocQuery.Condition.Tree

/-! The conditions of a node.

`conditionTree?` joins all links of a node. Once a row of an ancestor is at hand,
`bindParent` joins the links to that ancestor alone, with the row's values in place of
its fields. -/
namespace DocQuery

/-- The values of a row by the dotted names of its fields. -/
abbrev Record := String → Option Value

namespace Link

def operand (l : Link) : Operand :=
  match l.target with
  | .ancestor name field => .field name field
  | .const v => .const v
  | .param name => .param name

/-- The link as a predicate on the rows of a node. -/
def predicate (l : Link) (node : String) : Predicate :=
  { qualifier := node, field := l.field, op := l.op, operand := l.operand }

/-- The field that links to the ancestor, if the link does so. -/
def fieldOf? (l : Link) (ancestor : String) : Option FieldPath :=
  match l.target with
  | .ancestor name field => if sameName name ancestor then some field else none
  | _ => none

end Link

namespace Node

/-- The conjunction of leaves, if there are any. -/
def conjunction? (leaves : List Predicate) : Option (Tree Predicate) :=
  if leaves.isEmpty then none else some (Tree.all (leaves.map Tree.leaf))

/-- All links of the node together. -/
def conditionTree? (n : Node) : Option (Tree Predicate) :=
  conjunction? (n.links.map fun l => l.predicate n.name)

/-- The predicate of a link to the ancestor, whose field has the value that the record
gives it or else the link's default; a link to anything else gives none. -/
def boundPredicate (n : Node) (ancestor : String) (record : Record) (l : Link) :
    Except CompositionError (Option Predicate) :=
  match l.fieldOf? ancestor with
  | none => .ok none
  | some field =>
    match (record field.dotted).or l.default with
    | some v =>
      .ok (some { qualifier := n.name, field := l.field, op := l.op, operand := .const v })
    | none => .error (.missingParentValue n.name field.dotted)

end Node

namespace Composition

def conditionTree? (c : Composition) (i : Nat) : Option (Tree Predicate) := do
  (← c.node? i).conditionTree?

/-- The links of the node at place `i` to an ancestor, bound to a row of it. -/
def bindParent (c : Composition) (i : Nat) (n : Node) (ancestor : String) (record : Record) :
    Except CompositionError (Option (Tree Predicate)) :=
  if (c.ancestorNodes i).any fun (_, a) => sameName a.name ancestor then do
    let predicates ← n.links.mapM (n.boundPredicate ancestor record)
    return Node.conjunction? (predicates.filterMap id)
  else .error (.unknownAncestor n.name ancestor)

end Composition

end DocQuery
