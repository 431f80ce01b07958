/-! Commands, and what the containers of an operation are asked to do. -/
namespace DocQuery

/-- What is done to the rows of a container. -/
inductive Operation where
  | insert
  | select
  | update
  | delete
  /-- A routine is run. -/
  | exec
  deriving DecidableEq, Repr

namespace Operation

def all : List Operation :=
  [insert, select, update, delete, exec]

def name : Operation → String
  | insert => "Insert"
  | select => "Select"
  | update => "Update"
  | delete => "Delete"
  | exec => "Exec"

end Operation

inductive Command where
  | insert
  | select
  | update
  | delete
  /-- Rows are marked as deleted. -/
  | softDelete
  /-- The mark is taken away. -/
  | restore
  deriving DecidableEq, Repr

namespace Command

def all : List Command :=
  [insert, select, update, delete, softDelete, restore]

def name : Command → String
  | insert => "insert"
  | select => "select"
  | update => "update"
  | delete => "delete"
  | softDelete => "soft_delete"
  | restore => "restore"

/-- The command's name in data, where messages use `name`. -/
def tag : Command → String
  | insert => "Insert"
  | select => "Select"
  | update => "Update"
  | delete => "Delete"
  | softDelete => "SoftDelete"
  | restore => "Restore"

/-- The command's place among all of them, from zero. -/
def index (c : Command) : Nat :=
  all.idxOf c

/-- Must not run without a condition. -/
def needsFilter : Command → Bool
  | update | delete | softDelete | restore => true
  | insert | select => false

/-- What the command does to the rows of the primary container. -/
def operation : Command → Operation
  | insert => .insert
  | select => .select
  | update | softDelete | restore => .update
  | delete => .delete

/-- The commands whose operations can be borrowed for this one, first choice first. -/
def fallbacks : Command → List Command
  | softDelete => [delete, update]
  | restore => [softDelete, update]
  | _ => []

end Command

end DocQuery
