/-! The kinds of value a field can hold.

A kind says what can be done with a field: which kinds have an order, which take bit
masks, and which two kinds can be compared (`comparable`, a symmetric relation that
puts all numbers together). -/
namespace DocQuery

/-- A document that a field embeds: its position in the schema and what diagnostics
call it. -/
structure DocumentRef where
  position : Nat
  name : String
  deriving DecidableEq, Repr

inductive FieldKind where
  | bits
  | bool
  | bytes
  | decimal
  | float
  | int
  | text
  | timestamp
  | uint
  | ulid
  | list (element : FieldKind)
  | embedded (document : DocumentRef)
  deriving DecidableEq, Repr

namespace FieldKind

def isText : FieldKind → Bool
  | text => true
  | _ => false

def isNumeric : FieldKind → Bool
  | bits | decimal | float | int | uint => true
  | _ => false

/-- Kinds with a total order. -/
def isOrderable : FieldKind → Bool
  | bits | decimal | float | int | text | timestamp | uint | ulid => true
  | _ => false

/-- Kinds that take bit masks. -/
def isBitwise : FieldKind → Bool
  | bits | int | uint => true
  | _ => false

def isEmbedded : FieldKind → Bool
  | embedded _ => true
  | _ => false

def isList : FieldKind → Bool
  | list _ => true
  | _ => false

/-- The kind of a list's members; any other kind is its own. -/
def element : FieldKind → FieldKind
  | list k => k
  | k => k

/-- Whether fields of the two kinds can be compared with each other. -/
def comparable : FieldKind → FieldKind → Bool
  | list a, list b => a.comparable b
  | bool, bool | bytes, bytes | text, text | timestamp, timestamp | ulid, ulid => true
  | a, b => a.isNumeric && b.isNumeric

def name : FieldKind → String
  | bits => "bits"
  | bool => "bool"
  | bytes => "bytes"
  | decimal => "decimal"
  | float => "float"
  | int => "int"
  | text => "text"
  | timestamp => "timestamp"
  | uint => "uint"
  | ulid => "ulid"
  | list k => "list<" ++ k.name ++ ">"
  | embedded d => "embedded<" ++ d.name ++ ">"

/-- The kinds that are made of no others. -/
def scalars : List FieldKind :=
  [bits, bool, bytes, decimal, float, int, text, timestamp, uint, ulid]

/-- The scalar kind of that name. -/
def scalar? (name : String) : Option FieldKind :=
  scalars.find? fun k => k.name == name

end FieldKind

end DocQuery
