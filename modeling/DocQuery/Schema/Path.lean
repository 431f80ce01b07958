import DocQuery.Schema.Document

/-! Field paths.

A path names a field by the fields that lead to it: each but the last embeds the
document in which the next one is looked up. `FieldPath.resolve` reads a dotted text,
`FieldPath.resolveSegments` a list of names that are not split any further. When a name
cannot be resolved the error gives what was walked so far, that name included. -/
namespace DocQuery

/-- One field on a path and the document that declares it. -/
structure PathStep where
  owner : Document
  field : Field
  deriving DecidableEq, Repr

/-- The fields that lead from `root` to the last of them. -/
structure FieldPath where
  root : Document
  steps : List PathStep
  nonempty : steps ≠ []
  deriving DecidableEq, Repr

/-- Why a field reference does not resolve. -/
inductive PathError where
  | unknownField (document field : String)
  | foreignField (document field owner : String)
  deriving DecidableEq, Repr

def PathError.message : PathError → String
  | unknownField document field => document ++ ": unknown field '" ++ field ++ "'"
  | foreignField document field owner =>
    document ++ ": field '" ++ field ++ "' is declared on '" ++ owner ++ "'"

namespace FieldPath

def leaf (p : FieldPath) : Field :=
  (p.steps.getLast p.nonempty).field

def kind (p : FieldPath) : FieldKind :=
  p.leaf.kind

/-- Some field on the path can be null. -/
def isNullable (p : FieldPath) : Bool :=
  p.steps.any fun s => s.field.nullable

/-- Every field on the path reaches storage. -/
def isStored (p : FieldPath) : Bool :=
  p.steps.all fun s => s.field.isStored

def names (p : FieldPath) : List String :=
  p.steps.map fun s => s.field.name

def storageNames (p : FieldPath) : List String :=
  p.steps.map fun s => s.field.storage

def dotted (p : FieldPath) : String :=
  ".".intercalate p.names

/-- Both paths start at the same document and give the same names. -/
def same (a b : FieldPath) : Bool :=
  a.root.same b.root && a.names == b.names

/-! ### Resolving -/

/-- The text of the names walked so far with one more. A dot goes between them unless
nothing stands before it. -/
def extend (walked segment : String) : String :=
  if walked.isEmpty then segment else walked ++ "." ++ segment

/-- The steps that the names take from `current`, the document that is open, if any. -/
def walk (schema : Schema) (root : Document) (current : Option Document) (walked : String) :
    List String → Except PathError (List PathStep)
  | [] => .ok []
  | segment :: rest =>
    let walked := extend walked segment
    match current.bind fun d => (d.field? segment).map fun f => (⟨d, f⟩ : PathStep) with
    | none => .error (.unknownField root.path walked)
    | some step => do
      let steps ← walk schema root (schema.opened? step.field.kind) walked rest
      return step :: steps

def resolveSegments (schema : Schema) (root : Document) (segments : List String) :
    Except PathError FieldPath := do
  match ← walk schema root (some root) "" segments with
  | [] => .error (.unknownField root.path "")
  | step :: steps => .ok ⟨root, step :: steps, by simp⟩

/-- The characters between the dots. -/
def splitDots : List Char → List (List Char)
  | [] => [[]]
  | c :: rest =>
    if c = '.' then [] :: splitDots rest
    else match splitDots rest with
      | [] => [[c]]
      | word :: words => (c :: word) :: words

/-- The names between the dots of a text. -/
def segments (dotted : String) : List String :=
  (splitDots dotted.toList).map String.ofList

def resolve (schema : Schema) (root : Document) (dotted : String) :
    Except PathError FieldPath :=
  resolveSegments schema root (segments dotted)

end FieldPath

/-- A reference to a field, not yet resolved. -/
inductive Selector where
  /-- A dotted text. -/
  | named (dotted : String)
  /-- Names that belong to the fields of `owner`. -/
  | typed (owner : Document) (segments : List String)
  deriving DecidableEq, Repr

namespace Selector

def owner? : Selector → Option Document
  | named _ => none
  | typed owner _ => some owner

def dotted : Selector → String
  | named dotted => dotted
  | typed _ segments => ".".intercalate segments

/-- Looks the reference up in `document`, which must be the owner of a typed one. -/
def resolve (schema : Schema) (document : Document) : Selector → Except PathError FieldPath
  | named dotted => FieldPath.resolve schema document dotted
  | typed owner segments =>
    if owner.same document then FieldPath.resolveSegments schema document segments
    else .error (.foreignField document.path (".".intercalate segments) owner.path)

end Selector

/-- A reference to a field of `owner` by the name of the field. -/
structure Handle where
  owner : Document
  name : String
  deriving DecidableEq, Repr

namespace Handle

/-- The reference as a selector, in which the name is not split. -/
def selector (h : Handle) : Selector :=
  .typed h.owner [h.name]

/-- The path of the field, for which the name is read as a dotted text. -/
def path (schema : Schema) (h : Handle) : Except PathError FieldPath :=
  FieldPath.resolve schema h.owner h.name

end Handle

end DocQuery
