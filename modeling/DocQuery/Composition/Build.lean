import DocQuery.Composition.Node
import DocQuery.Metrics.Event

/-! Building a composition.

A composition is built from a root by steps. A step adds a node below the one at hand and
takes the steps given for it, or adds a link to the node at hand. The first error ends the
steps of a node and is passed to the step that added it, unless the step is an attempt:
then the steps after it go on. What was added before an error stays. -/
namespace DocQuery

/-- How a link is asked for. -/
inductive Rule where
  /-- A comparison with a field of the named ancestor. -/
  | join (ancestor : String) (field : Selector) (op : Operator) (ancestorField : Selector)
  /-- A comparison with a field of the only ancestor whose document the field belongs to. -/
  | connect (field : Selector) (op : Operator) (ancestorField : Selector)
      (default : Option Value)
  | const (field : Selector) (op : Operator) (v : Value)
  | param (field : Selector) (op : Operator) (name : String)

inductive Step where
  | node (name : String) (document : Document) (steps : List Step) (attempt : Bool)
  | link (rule : Rule) (attempt : Bool)

/-- What happens while steps are taken. -/
inductive Trail where
  /-- The steps of a new node begin. -/
  | entered (node document : String)
  /-- A step ended. -/
  | finished (result : Except CompositionError Unit)

namespace Composition

/-! ### Nodes and links -/

/-- Adds a node below another and gives its place. -/
def addNode (c : Composition) (parent : Nat) (name : String) (document : Document) :
    Except CompositionError (Nat × Composition) :=
  if (c.find? name).isSome then .error (.duplicateNode name)
  else
    let i := c.nodes.length
    let nodes := c.nodes.modify parent fun n => { n with children := n.children ++ [i] }
    .ok (i, { c with
      nodes := nodes ++ [{ name := name, document := document, parent := some parent }]
      places := c.places ++ [(Text.lowerCase name, i)] })

def addLink (c : Composition) (i : Nat) (l : Link) : Composition :=
  { c with nodes := c.nodes.modify i fun n => { n with links := n.links ++ [l] } }

/-- The link of a node's field to a field of an ancestor. -/
def ancestorLink (c : Composition) (n ancestor : Node) (field : Selector) (op : Operator)
    (ancestorField : Selector) (default : Option Value) : Except CompositionError Link := do
  let left ← (field.resolve c.schema n.document).mapError .path
  let right ← (ancestorField.resolve c.schema ancestor.document).mapError .path
  (left.checkFieldPair op right).mapError .condition
  match default with
  | some v => (left.checkLiteral op v).mapError .condition
  | none => .ok ()
  return { field := left, op := op, target := .ancestor ancestor.name right
           default := default }

/-- The ancestor of that name. -/
def namedAncestor (c : Composition) (i : Nat) (n : Node) (name : String) :
    Except CompositionError Node :=
  match (c.ancestorNodes i).find? fun (_, a) => sameName a.name name with
  | some (_, a) => .ok a
  | none => .error (.unknownAncestor n.name name)

/-- The only ancestor that is bound to the document. -/
def boundAncestor (c : Composition) (i : Nat) (n : Node) (document : Document) :
    Except CompositionError Node :=
  match (c.ancestorNodes i).filter fun (_, a) => a.document.same document with
  | [(_, a)] => .ok a
  | [] => .error (.noMatchingAncestor n.name document.path)
  | several => .error (.ambiguousAncestor n.name document.path
      (several.map fun (_, a) => a.name))

/-- The link that a rule asks for at the node `n` at place `i`. -/
def link (c : Composition) (i : Nat) (n : Node) : Rule → Except CompositionError Link
  | .join ancestor field op ancestorField => do
    let a ← c.namedAncestor i n ancestor
    c.ancestorLink n a field op ancestorField none
  | .connect field op ancestorField default =>
    match ancestorField.owner? with
    | none => .error (.untypedAncestorField n.name ancestorField.dotted)
    | some owner => do
      let a ← c.boundAncestor i n owner
      c.ancestorLink n a field op ancestorField default
  | .const field op v => do
    let path ← (field.resolve c.schema n.document).mapError .path
    (path.checkOperator op false).mapError .condition
    (path.checkLiteral op v).mapError .condition
    return { field := path, op := op, target := .const v }
  | .param field op name => do
    let path ← (field.resolve c.schema n.document).mapError .path
    (path.checkOperator op false).mapError .condition
    return { field := path, op := op, target := .param name }

/-- Adds the link that a rule asks for at place `i`. -/
def addRule (c : Composition) (i : Nat) (r : Rule) : Except CompositionError Composition :=
  match c.node? i with
  | none => .ok c
  | some n => (c.link i n r).map (c.addLink i)

/-! ### Steps -/

/-- A composition with what happened while it was built. -/
structure Site where
  composition : Composition
  log : List Trail := []

def Site.note (s : Site) (t : Trail) : Site :=
  { s with log := s.log ++ [t] }

/-- What a step's result means to the steps after it. -/
def passedUp (attempt : Bool) (result : Except CompositionError Unit) :
    Except CompositionError Unit :=
  if attempt then .ok () else result

mutual

/-- Takes a step at the node at place `i`. -/
def takeStep (i : Nat) (s : Site) : Step → Site × Except CompositionError Unit
  | .link rule attempt =>
    match s.composition.addRule i rule with
    | .ok c => (({ s with composition := c } : Site).note (.finished (.ok ())), .ok ())
    | .error e => (s.note (.finished (.error e)), passedUp attempt (.error e))
  | .node name document steps attempt =>
    match s.composition.addNode i name document with
    | .error e => (s.note (.finished (.error e)), passedUp attempt (.error e))
    | .ok (child, c) =>
      let s := ({ s with composition := c } : Site).note (.entered name document.path)
      let (s, result) := takeSteps child s steps
      (s.note (.finished result), passedUp attempt result)

def takeSteps (i : Nat) (s : Site) : List Step → Site × Except CompositionError Unit
  | [] => (s, .ok ())
  | step :: rest =>
    match takeStep i s step with
    | (s, .ok ()) => takeSteps i s rest
    | (s, .error e) => (s, .error e)

end

/-- A composition of one node. -/
def root (schema : Schema) (name : String) (document : Document) : Composition :=
  { schema := schema, nodes := [{ name := name, document := document, parent := none }]
    places := [(Text.lowerCase name, 0)] }

/-- What building came to. -/
structure Built where
  result : Except CompositionError Composition
  log : List Trail

/-- Builds a composition from its root and the steps at the root. -/
def build (schema : Schema) (name : String) (document : Document) (steps : List Step) :
    Traced Built :=
  match takeSteps 0 { composition := root schema name document } steps with
  | (s, .ok ()) =>
    { result := ⟨.ok s.composition, s.log⟩, events := [.composed document.path] }
  | (s, .error e) => { result := ⟨.error e, s.log⟩ }

end Composition

end DocQuery
