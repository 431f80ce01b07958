/-! Comparison operators and what each of them can do.

Every rule that depends on the operator alone is a function here. -/
namespace DocQuery

inductive Operator where
  | equal
  | notEqual
  | greater
  | greaterOrEqual
  | less
  | lessOrEqual
  | isIn
  | notIn
  | like
  | notLike
  | isNull
  | isNotNull
  | between
  | notBetween
  | bitsAnd
  | bitsOr
  deriving DecidableEq, Repr

namespace Operator

/-- All operators, in their order. -/
def all : List Operator :=
  [equal, notEqual, greater, greaterOrEqual, less, lessOrEqual, isIn, notIn, like, notLike,
    isNull, isNotNull, between, notBetween, bitsAnd, bitsOr]

def name : Operator → String
  | equal => "Equal"
  | notEqual => "NotEqual"
  | greater => "Greater"
  | greaterOrEqual => "GreaterOrEqual"
  | less => "Less"
  | lessOrEqual => "LessOrEqual"
  | isIn => "In"
  | notIn => "NotIn"
  | like => "Like"
  | notLike => "NotLike"
  | isNull => "IsNull"
  | isNotNull => "IsNotNull"
  | between => "Between"
  | notBetween => "NotBetween"
  | bitsAnd => "BitsAnd"
  | bitsOr => "BitsOr"

/-- The operator's place among all of them, from zero. -/
def index (op : Operator) : Nat :=
  all.idxOf op

/-- The operator's number, from one. -/
def tag (op : Operator) : Nat :=
  op.index + 1

/-- How many operators come after this one. -/
def following (op : Operator) : Nat :=
  (all.filter fun o => op.index < o.index).length

/-- Takes no operand. -/
def isNullary : Operator → Bool
  | isNull | isNotNull => true
  | _ => false

/-- Needs a field with an order. -/
def needsOrder : Operator → Bool
  | greater | greaterOrEqual | less | lessOrEqual | between | notBetween => true
  | _ => false

def isRange : Operator → Bool
  | between | notBetween => true
  | _ => false

def isMembership : Operator → Bool
  | isIn | notIn => true
  | _ => false

def isPattern : Operator → Bool
  | like | notLike => true
  | _ => false

def isBitwise : Operator → Bool
  | bitsAnd | bitsOr => true
  | _ => false

/-- Can be asked to disregard case. -/
def foldsCase : Operator → Bool
  | equal | notEqual | isIn | notIn | like | notLike => true
  | _ => false

/-- Can stand between two fields. -/
def comparesFields : Operator → Bool
  | isNull | isNotNull | between | notBetween => false
  | _ => true

/-- With a list of values, holds when it holds for one of them. -/
def chains : Operator → Bool
  | greater | greaterOrEqual | less | lessOrEqual | like | notLike | bitsAnd => true
  | _ => false

/-- With a null, becomes a test for null. -/
def acceptsNull : Operator → Bool
  | equal | notEqual | isIn | notIn | like | notLike => true
  | _ => false

/-- How the operator is written between its two sides. -/
def symbol? : Operator → Option String
  | equal => some "="
  | notEqual => some "<>"
  | greater => some ">"
  | greaterOrEqual => some ">="
  | less => some "<"
  | lessOrEqual => some "<="
  | like => some "LIKE"
  | notLike => some "NOT LIKE"
  | _ => none

end Operator

end DocQuery
