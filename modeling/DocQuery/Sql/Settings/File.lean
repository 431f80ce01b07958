import DocQuery.Sql.Settings
import DocQuery.Toml.Reader

/-! Settings in a file: one TOML entry for each, and no others.

`read` gives checked settings; entries that are missing keep their defaults. `write`
gives all five entries, in a fixed order. -/
namespace DocQuery.Sql.Settings

/-- A name, also as a table whose one entry has that name and is empty. -/
def placeholderOf? : Toml → Option PlaceholderStyle
  | .string name => PlaceholderStyle.ofName? name
  | .table _ [(name, .emptyArray)] => PlaceholderStyle.ofName? name
  | .table _ [(name, .table _ [])] => PlaceholderStyle.ofName? name
  | _ => none

def quoteOf? : Toml → Option Char
  | .string s =>
    match s.toList with
    | [c] => some c
    | _ => none
  | _ => none

def textOf? : Toml → Option String
  | .string s => some s
  | _ => none

def limitOf? : Toml → Option UInt64
  | .integer n => if 0 ≤ n ∧ n.toNat < UInt64.size then some (UInt64.ofNat n.toNat) else none
  | _ => none

/-- The settings with one entry taken in. -/
def withEntry (s : Settings) (key : String) (v : Toml) : Option Settings :=
  if key = "placeholder" then (placeholderOf? v).map fun p => { s with placeholder := p }
  else if key = "quote" then (quoteOf? v).map fun c => { s with quote := c }
  else if key = "lower_fn" then (textOf? v).map fun t => { s with lowerFn := t }
  else if key = "false_literal" then (textOf? v).map fun t => { s with falseLiteral := t }
  else if key = "max_slice_groups" then
    (limitOf? v).map fun n => { s with disjunctLimit := n }
  else none

def withEntries (s : Settings) : Toml.Entries → Option Settings
  | [] => some s
  | (key, v) :: rest => do withEntries (← withEntry s key v) rest

def read (text : String) : Except SettingsError Settings :=
  match (Toml.read text).bind (withEntries {}) with
  | none => .error .unreadable
  | some s => s.check.map fun _ => s

def entryText (key value : String) : String :=
  key ++ " = " ++ value ++ "\n"

def write (s : Settings) : String :=
  entryText "placeholder" (Toml.write s.placeholder.name) ++
    entryText "quote" (Toml.write s.quote.toString) ++
    entryText "lower_fn" (Toml.write s.lowerFn) ++
    entryText "false_literal" (Toml.write s.falseLiteral) ++
    entryText "max_slice_groups" (toString s.disjunctLimit.toNat)

end DocQuery.Sql.Settings
