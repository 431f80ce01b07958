import DocQuery.Value

/-! Named parameters and their values for one call.

Parameters are declared in order; looking one up finds the first of its name. A value is
kept for a declared name only, and null only where the parameter may be null. -/
namespace DocQuery

inductive ParamDirection where
  | input
  | output
  | both
  deriving DecidableEq, Repr

namespace ParamDirection

def all : List ParamDirection :=
  [input, output, both]

def name : ParamDirection → String
  | input => "In"
  | output => "Out"
  | both => "InOut"

end ParamDirection

structure Parameter where
  name : String
  kind : FieldKind
  nullable : Bool := false
  direction : ParamDirection := .input
  size : Option UInt32 := none
  precision : Option UInt8 := none
  scale : Option UInt8 := none
  dbType : Option String := none
  /-- Some condition refers to the parameter. -/
  used : Bool := false
  deriving DecidableEq, Repr

inductive ParamError where
  | unknown (name : String)
  | notNullable (name : String)
  deriving DecidableEq, Repr

def ParamError.message : ParamError → String
  | unknown name => "unknown parameter '" ++ name ++ "'"
  | notNullable name => "parameter '" ++ name ++ "' is not nullable"

structure ParamSet where
  declared : List Parameter := []
  /-- The values given so far, the latest first. -/
  values : List (String × Value) := []

namespace ParamSet

def declare (s : ParamSet) (p : Parameter) : ParamSet :=
  { s with declared := s.declared ++ [p] }

def declaration? (s : ParamSet) (name : String) : Option Parameter :=
  s.declared.find? fun p => p.name == name

/-- The value last given to the name. -/
def value? (s : ParamSet) (name : String) : Option Value :=
  s.values.lookup name

def set (s : ParamSet) (name : String) (v : Value) : Except ParamError ParamSet :=
  match s.declaration? name with
  | none => .error (.unknown name)
  | some p =>
    if v.isNull && !p.nullable then .error (.notNullable name)
    else .ok { s with values := (name, v) :: s.values }

/-- Sets the values in order, up to the first that fails. -/
def setAll (s : ParamSet) : List (String × Value) → Except ParamError ParamSet
  | [] => .ok s
  | (name, v) :: rest =>
    match s.set name v with
    | .error e => .error e
    | .ok s => s.setAll rest

/-- Forgets all values. -/
def clear (s : ParamSet) : ParamSet :=
  { s with values := [] }

end ParamSet

end DocQuery
