import DocQuery.Condition.OperandError
import DocQuery.Value

/-! What may be compared with what.

These checks are made when a condition is declared. They look at the field's kind, its
operator and its operand: a constant (`checkLiteral`), another field (`checkFieldPair`)
or a declared parameter (`checkParam`). -/
namespace DocQuery

inductive ConditionError where
  | notQueryable (place : Place)
  | operatorNotSupported (place : Place) (op : Operator) (kind : String)
  | caseInsensitive (place : Place) (op : Operator)
  | invalidLiteral (place : Place) (value kind : String)
  | incompatibleFields (place : Place) (other : String)
  | operand (e : OperandError)
  deriving DecidableEq, Repr

def ConditionError.message : ConditionError → String
  | notQueryable p =>
    p.document ++ ": field '" ++ p.field ++ "' has no storage and cannot be referenced"
  | operatorNotSupported p op kind =>
    p.document ++ ": operator " ++ op.name ++ " is not supported on field '" ++ p.field ++
      "' of kind " ++ kind
  | caseInsensitive p op =>
    p.document ++ ": case-insensitive " ++ op.name ++ " is not supported on field '" ++
      p.field ++ "'"
  | invalidLiteral p value kind =>
    p.document ++ ": " ++ value ++ " literal does not match field '" ++ p.field ++
      "' of kind " ++ kind
  | incompatibleFields p other =>
    p.document ++ ": field '" ++ p.field ++ "' is not comparable with '" ++ other ++ "'"
  | operand e => e.message

namespace FieldPath

/-- The field reaches storage and is no document. -/
def checkQueryable (path : FieldPath) : Except ConditionError Unit :=
  if !path.isStored || path.kind.isEmbedded then .error (.notQueryable path.place) else .ok ()

/-- The operator can be used on fields of this kind. -/
def supports (path : FieldPath) (op : Operator) : Bool :=
  if op.needsOrder then path.kind.isOrderable
  else if op.isPattern then path.kind.isText
  else if op.isBitwise then path.kind.isBitwise
  else true

/-- The operator suits the field, whatever the operand. -/
def checkOperator (path : FieldPath) (op : Operator) (foldCase : Bool) :
    Except ConditionError Unit := do
  path.checkQueryable
  if !path.supports op then .error (.operatorNotSupported path.place op path.kind.name)
  else if op.isNullary && !path.isNullable then
    .error (.operand (.nullOnNonNullable path.place))
  else if foldCase && !(op.foldsCase && path.kind.isText) then
    .error (.caseInsensitive path.place op)
  else .ok ()

/-- The field can be compared with null. -/
def checkNull (path : FieldPath) (op : Operator) : Except ConditionError Unit :=
  if !op.acceptsNull then .error (.operand (.nullOperand path.place op))
  else if !path.isNullable then .error (.operand (.nullOnNonNullable path.place))
  else .ok ()

def checkKind (path : FieldPath) (v : Value) (kind : FieldKind) : Except ConditionError Unit :=
  if v.suits kind then .ok () else .error (.invalidLiteral path.place v.label kind.name)

/-- A member of a list that the field is compared with. -/
def checkItem (path : FieldPath) (op : Operator) (item : Value) : Except ConditionError Unit :=
  if item.isNull then
    if op.isRange then .error (.operand (.nullOperand path.place op)) else path.checkNull op
  else path.checkKind item path.kind.element

def checkItems (path : FieldPath) (op : Operator) : List Value → Except ConditionError Unit
  | [] => .ok ()
  | item :: rest => do
    path.checkItem op item
    path.checkItems op rest

/-- The constant suits the field and the operator. A field that holds lists is compared
with a whole list when the operator is equality. -/
def checkLiteral (path : FieldPath) (op : Operator) (v : Value) : Except ConditionError Unit :=
  if op.isNullary then
    if v.isNull then .ok ()
    else .error (.invalidLiteral path.place v.label path.kind.name)
  else match v with
    | .null => path.checkNull op
    | .list items =>
      if path.kind.isList && (op == .equal || op == .notEqual) then
        path.checkKind (.list items) path.kind
      else if op.isRange && (items.isEmpty || items.length % 2 != 0) then
        .error (.operand (.malformedRange path.place items.length))
      else path.checkItems op items
    | v =>
      if op.isRange then .error (.operand (.malformedRange path.place 1))
      else path.checkKind v path.kind

/-- The kind that a field must be comparable with when it stands to the right of the
operator: for membership, that of the members of a list. -/
def rightKind? (right : FieldPath) (op : Operator) : Option FieldKind :=
  if op.isMembership then
    match right.kind with
    | .list k => some k
    | _ => none
  else some right.kind

/-- The two fields can be compared by the operator. -/
def checkFieldPair (left : FieldPath) (op : Operator) (right : FieldPath) :
    Except ConditionError Unit :=
  if !op.comparesFields then .error (.operand (.illegalFieldComparison left.place op))
  else do
    left.checkOperator op false
    right.checkQueryable
    match rightKind? right op with
    | some kind =>
      if left.kind.comparable kind then .ok ()
      else .error (.incompatibleFields left.place right.dotted)
    | none => .error (.incompatibleFields left.place right.dotted)

/-- A parameter of that kind can be compared with the field. Unless the field holds
lists, a parameter that does stands for its members. -/
def checkParam (path : FieldPath) (name : String) (kind : FieldKind) :
    Except ConditionError Unit :=
  let kind := if path.kind.isList then kind else kind.element
  if path.kind.comparable kind then .ok () else .error (.incompatibleFields path.place name)

end FieldPath

end DocQuery
