import DocQuery.Text.Escaped
import DocQuery.Value

/-! Values as diagnostics show them: a label and, in parentheses, what it holds. -/
namespace DocQuery.Value

/-- Around a point from `1e-4` up to below `1e16`, and with a bare exponent elsewhere. -/
def floatStyle : Number.DecimalStyle := ⟨-4, 16, ""⟩

mutual

def display : Value → String
  | null => "Null"
  | bool b => "Bool(" ++ (if b then "true" else "false") ++ ")"
  | int n => "Int(" ++ toString n.toInt ++ ")"
  | uint n => "Uint(" ++ toString n.toNat ++ ")"
  | float x => "Float(" ++ x.text floatStyle ++ ")"
  | text s => "Text(" ++ Text.quoted s ++ ")"
  | bytes bs => "Bytes(" ++ Text.bracketed (bs.map fun b => toString b.toNat) ++ ")"
  | timestamp t => "Timestamp(" ++ t.text ++ ")"
  | ulid bits => "Ulid(Ulid(" ++ toString bits.toNat ++ "))"
  | list items => "List(" ++ Text.bracketed (displayAll items) ++ ")"

def displayAll : List Value → List String
  | [] => []
  | v :: rest => display v :: displayAll rest

end

end DocQuery.Value
