import DocQuery.Condition.Operator
import DocQuery.Schema.Path
import DocQuery.Value.Display

/-! Predicates: one comparison of a field with an operand. -/
namespace DocQuery

/-- The right-hand side of a comparison. -/
inductive Operand where
  | none
  /-- A field of the container or node `qualifier`. -/
  | field (qualifier : String) (path : FieldPath)
  | const (value : Value)
  /-- A parameter, whose value is looked up when the condition is compiled. -/
  | param (name : String)
  deriving BEq

namespace Operand

def isField : Operand → Bool
  | field _ _ => true
  | _ => false

def isConst : Operand → Bool
  | const _ => true
  | _ => false

def isParam : Operand → Bool
  | param _ => true
  | _ => false

def param? : Operand → Option String
  | param name => some name
  | _ => Option.none

def display : Operand → String
  | none => ""
  | field qualifier path => " " ++ qualifier ++ "." ++ path.dotted
  | const value => " " ++ value.display
  | param name => " @" ++ name

end Operand

structure Predicate where
  /-- The container or node that owns the field. An empty qualifier is not written. -/
  qualifier : String
  field : FieldPath
  op : Operator
  operand : Operand
  /-- Letter case is disregarded. -/
  foldCase : Bool := false
  deriving BEq

namespace Predicate

def display (p : Predicate) : String :=
  (if p.qualifier.isEmpty then "" else p.qualifier ++ ".") ++ p.field.dotted ++ " " ++ p.op.name ++
    p.operand.display

end Predicate

end DocQuery
