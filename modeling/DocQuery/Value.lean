import DocQuery.Number.Binary64
import DocQuery.Schema.Kind
import DocQuery.Text.LowerCase
import DocQuery.Time.Instant

/-! Values: the constants of conditions and what parameters hold.

`casefold` brings a value's texts to lower case and leaves everything else alone.
`suits` says which values can be compared with a field of a kind; null suits every
kind. -/
namespace DocQuery

inductive Value where
  | null
  | bool (b : Bool)
  | int (n : Int64)
  | uint (n : UInt64)
  | float (x : Number.Binary64)
  | text (s : String)
  | bytes (bs : List UInt8)
  | timestamp (t : Time.Instant)
  | ulid (bits : BitVec 128)
  | list (items : List Value)
  deriving BEq

namespace Value

def isNull : Value → Bool
  | null => true
  | _ => false

/-- The members of a list; no other value has any. -/
def items? : Value → Option (List Value)
  | list items => some items
  | _ => none

def label : Value → String
  | null => "null"
  | bool _ => "bool"
  | int _ => "int"
  | uint _ => "uint"
  | float _ => "float"
  | text _ => "text"
  | bytes _ => "bytes"
  | timestamp _ => "timestamp"
  | ulid _ => "ulid"
  | list _ => "list"

mutual

/-- The value with its texts, also those inside lists, in lower case. -/
def casefold : Value → Value
  | text s => text (Text.lowerCase s)
  | list items => list (casefoldAll items)
  | null => null
  | bool b => bool b
  | int n => int n
  | uint n => uint n
  | float x => float x
  | bytes bs => bytes bs
  | timestamp t => timestamp t
  | ulid bits => ulid bits

def casefoldAll : List Value → List Value
  | [] => []
  | v :: rest => casefold v :: casefoldAll rest

end

/-- Whether the value can be compared with a field of that kind. -/
def suits (v : Value) (kind : FieldKind) : Bool :=
  match kind, v with
  | _, null => true
  | .list k, list items => items.all fun item => item.suits k
  | .bool, bool _ | .text, text _ | .bytes, bytes _ | .timestamp, timestamp _
  | .ulid, ulid _ => true
  | .bits, int _ | .decimal, int _ | .float, int _ | .int, int _ | .uint, int _ => true
  | .bits, uint _ | .decimal, uint _ | .float, uint _ | .int, uint _ | .uint, uint _ => true
  | .decimal, float _ | .float, float _ => true
  | _, _ => false
termination_by structural kind

end Value

end DocQuery
