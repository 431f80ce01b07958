import DocQuery.Schema.Kind
import DocQuery.Text.Escaped

/-! Documents, their fields, and the schema that holds them.

A schema is a list of documents. A field that embeds a document refers to it by its
position, so documents may embed each other in circles. Two documents are the same when
their paths are. -/
namespace DocQuery

/-- What a field stands for in its document. -/
inductive Role where
  | identifier
  | created
  | updated
  | deleted
  | readOnly
  | noStorage
  deriving DecidableEq, Repr

namespace Role

def all : List Role :=
  [identifier, created, updated, deleted, readOnly, noStorage]

def name : Role → String
  | identifier => "Identifier"
  | created => "Created"
  | updated => "Updated"
  | deleted => "Deleted"
  | readOnly => "ReadOnly"
  | noStorage => "NoStorage"

end Role

/-- A set of roles. -/
abbrev Roles := List Role

structure Field where
  name : String
  /-- The column or attribute that holds the field. -/
  storage : String
  kind : FieldKind
  nullable : Bool := false
  roles : Roles := []
  /-- The fields that this one is derived from. -/
  dependsOn : List String := []
  deriving DecidableEq, Repr

namespace Field

def hasRole (f : Field) (r : Role) : Bool :=
  f.roles.contains r

/-- A reference to the field as diagnostics show it. -/
def displayName (name : String) : String :=
  "FieldRef(" ++ Text.quoted name ++ ")"

/-- The field reaches storage. -/
def isStored (f : Field) : Bool :=
  !f.hasRole .noStorage

end Field

structure Document where
  /-- What identifies the document. -/
  path : String
  name : String
  /-- The table or view that holds it. -/
  storage : String
  fields : List Field
  deriving DecidableEq, Repr

namespace Document

/-- The first field of that name. -/
def field? (d : Document) (name : String) : Option Field :=
  d.fields.find? fun f => f.name == name

/-- The first field with that role. -/
def fieldWith? (d : Document) (r : Role) : Option Field :=
  d.fields.find? fun f => f.hasRole r

def identifier? (d : Document) : Option Field :=
  d.fieldWith? .identifier

def created? (d : Document) : Option Field :=
  d.fieldWith? .created

def updated? (d : Document) : Option Field :=
  d.fieldWith? .updated

def deleted? (d : Document) : Option Field :=
  d.fieldWith? .deleted

def same (a b : Document) : Bool :=
  a.path == b.path

/-- A document as diagnostics show it. Its fields are only counted, since they may lead
back to it. -/
def display (d : Document) : String :=
  "DocumentModel \x7b path: " ++ Text.quoted d.path ++ ", storage_name: " ++
    Text.quoted d.storage ++ ", fields: " ++ toString d.fields.length ++ " \x7d"

end Document

abbrev Schema := List Document

/-- The document that a field of this kind opens, if it embeds one. -/
def Schema.opened? (s : Schema) : FieldKind → Option Document
  | .embedded d => s[d.position]?
  | _ => none

end DocQuery
