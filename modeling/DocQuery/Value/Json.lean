import DocQuery.Json
import DocQuery.Text.Crockford
import DocQuery.Value

/-! Values as JSON: null is the text `Null`, every other value an object whose one
member is named for its kind. Reading refuses whatever writing would not give, save that
an object may also hold the null, and that a whole number will do for a double. -/
namespace DocQuery

open Json (array object)

/-- A whole number among the 64-bit signed ones. -/
def Json.int64? : Json → Option Int64
  | .int n =>
    if Int64.minValue.toInt ≤ n ∧ n ≤ Int64.maxValue.toInt then some (Int64.ofInt n) else none
  | _ => none

def Json.uint64? : Json → Option UInt64
  | .int n => if 0 ≤ n ∧ n.toNat < UInt64.size then some (UInt64.ofNat n.toNat) else none
  | _ => none

def Json.byte? : Json → Option UInt8
  | .int n => if 0 ≤ n ∧ n < 256 then some (UInt8.ofNat n.toNat) else none
  | _ => none

def Json.double? : Json → Option Number.Binary64
  | .int n => some (Number.Binary64.ofDecimal (n < 0) n.natAbs 0)
  | .float x => some x
  | _ => none

namespace Value

/-- A value that holds no others, from its tag and what stands under it. -/
def ofTagged? (tag : String) (payload : Json) : Option Value :=
  match tag, payload with
  | "Null", .null => some null
  | "Bool", .bool b => some (bool b)
  | "Int", n => n.int64?.map int
  | "Uint", n => n.uint64?.map uint
  | "Float", n => n.double?.map float
  | "Text", .string s => some (text s)
  | "Bytes", .array bs => (bs.mapM Json.byte?).map bytes
  | "Timestamp", .string s => (Time.Instant.read s).map timestamp
  | "Ulid", .string s => (Text.Crockford.decode s).map ulid
  | _, _ => none

mutual

def ofJson? : Json → Option Value
  | .string s => if s = "Null" then some null else none
  | .object [(tag, .array items)] =>
    if tag = "List" then (ofJsonAll? items).map list else ofTagged? tag (.array items)
  | .object [(tag, payload)] => ofTagged? tag payload
  | _ => none

def ofJsonAll? : List Json → Option (List Value)
  | [] => some []
  | item :: rest => do return (← ofJson? item) :: (← ofJsonAll? rest)

end

mutual

def toJson : Value → Json
  | null => .string "Null"
  | bool b => object [("Bool", .bool b)]
  | int n => object [("Int", .int n.toInt)]
  | uint n => object [("Uint", .int n.toNat)]
  | float x => object [("Float", .float x)]
  | text s => object [("Text", .string s)]
  | bytes bs => object [("Bytes", array (bs.map fun b => .int b.toNat))]
  | timestamp t => object [("Timestamp", .string t.text)]
  | ulid bits => object [("Ulid", .string (Text.Crockford.encode bits))]
  | list items => object [("List", array (toJsonAll items))]

def toJsonAll : List Value → List Json
  | [] => []
  | v :: rest => toJson v :: toJsonAll rest

end

end Value

end DocQuery
