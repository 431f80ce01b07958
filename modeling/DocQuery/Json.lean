import DocQuery.Number.Binary64

/-! JSON data.

Whole numbers are kept exactly; a number with a point or an exponent, and the negative
zero, is the nearest double. Members keep their order. -/
namespace DocQuery

inductive Json where
  | null
  | bool (b : Bool)
  | int (n : Int)
  | float (x : Number.Binary64)
  | string (s : String)
  | array (items : List Json)
  | object (members : List (String × Json))
  deriving Inhabited

namespace Json

/-- The member of that name, if this is an object that has one. -/
def member? (key : String) : Json → Option Json
  | object members => members.lookup key
  | _ => none

end Json

end DocQuery
