/-! Dialects: how a database writes identifiers, placeholders and a few words.

An identifier stands between two quote characters, with every quote character inside it
written twice. -/
namespace DocQuery.Sql

/-- The characters with every `q` doubled. -/
def doubled (q : Char) : List Char → List Char
  | [] => []
  | c :: rest => if c = q then q :: q :: doubled q rest else c :: doubled q rest

def quoteWith (q : Char) (identifier : String) : String :=
  String.ofList (q :: (doubled q identifier.toList ++ [q]))

structure Dialect where
  quote : String → String
  /-- The text for the value bound at a place, counted from one. -/
  placeholder : Nat → String
  /-- A placeholder names its place, so that one value can be used twice. -/
  numbered : Bool
  /-- The function that brings text to lower case. -/
  lowerFn : String := "LOWER"
  /-- A condition that never holds. -/
  falseLiteral : String := "FALSE"

def numberedPlaceholder (place : Nat) : String :=
  "$" ++ toString place

namespace Dialect

def postgres : Dialect where
  quote := quoteWith '"'
  placeholder := numberedPlaceholder
  numbered := true

end Dialect

end DocQuery.Sql
