import DocQuery.Condition.Operator
import DocQuery.Schema.Path

/-! Operands that do not suit their field.

The same faults are found where a condition is declared and where it is compiled, and
are told in the same words. -/
namespace DocQuery

/-- The field that an error is about. -/
structure Place where
  document : String
  field : String
  deriving DecidableEq, Repr

def FieldPath.place (p : FieldPath) : Place :=
  ⟨p.root.path, p.dotted⟩

inductive OperandError where
  | nullOnNonNullable (place : Place)
  | nullOperand (place : Place) (op : Operator)
  | malformedRange (place : Place) (count : Nat)
  | illegalFieldComparison (place : Place) (op : Operator)
  deriving DecidableEq, Repr

def OperandError.message : OperandError → String
  | nullOnNonNullable p =>
    p.document ++ ": null compared against non-nullable field '" ++ p.field ++ "'"
  | nullOperand p op =>
    p.document ++ ": operator " ++ op.name ++ " on field '" ++ p.field ++
      "' does not accept null"
  | malformedRange p count =>
    p.document ++ ": range on field '" ++ p.field ++
      "' needs an even, non-zero value count, got " ++ toString count
  | illegalFieldComparison p op =>
    p.document ++ ": operator " ++ op.name ++ " cannot compare field '" ++ p.field ++
      "' with another field"

end DocQuery
