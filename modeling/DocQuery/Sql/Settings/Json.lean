import DocQuery.Sql.Settings
import DocQuery.Value.Json

/-! Settings as a JSON object. They are not checked; an unknown member or one of the wrong
type is refused. -/
namespace DocQuery.Sql.Settings

/-- A name, also as an object whose one member has that name and is null. -/
def placeholderOfJson? : Json → Option PlaceholderStyle
  | .string name => PlaceholderStyle.ofName? name
  | .object [(name, .null)] => PlaceholderStyle.ofName? name
  | _ => none

def quoteOfJson? : Json → Option Char
  | .string s =>
    match s.toList with
    | [c] => some c
    | _ => none
  | _ => none

def textOfJson? : Json → Option String
  | .string s => some s
  | _ => none

/-- The settings with one member taken in. -/
def withMember (s : Settings) (key : String) (v : Json) : Option Settings :=
  if key = "placeholder" then (placeholderOfJson? v).map fun p => { s with placeholder := p }
  else if key = "quote" then (quoteOfJson? v).map fun c => { s with quote := c }
  else if key = "lower_fn" then (textOfJson? v).map fun t => { s with lowerFn := t }
  else if key = "false_literal" then
    (textOfJson? v).map fun t => { s with falseLiteral := t }
  else if key = "max_slice_groups" then v.uint64?.map fun n => { s with disjunctLimit := n }
  else none

def ofJson? : Json → Option Settings
  | .object members => members.foldlM (fun s (key, v) => s.withMember key v) {}
  | _ => none

def toJson (s : Settings) : Json :=
  .object [
    ("placeholder", .string s.placeholder.name),
    ("quote", .string s.quote.toString),
    ("lower_fn", .string s.lowerFn),
    ("false_literal", .string s.falseLiteral),
    ("max_slice_groups", .int s.disjunctLimit.toNat)]

end DocQuery.Sql.Settings
