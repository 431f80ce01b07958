import DocQuery.Text.Printable

/-! Texts as diagnostics quote them: between double quotes, with a backslash before a
quote or a backslash, short names for the common controls and the code point in
hexadecimal for every other character that does not print. -/
namespace DocQuery.Text

def escapeChar (c : Char) : String :=
  match c with
  | '"' => "\\\""
  | '\\' => "\\\\"
  | '\n' => "\\n"
  | '\r' => "\\r"
  | '\t' => "\\t"
  | '\x00' => "\\0"
  | c =>
    if isPrintable c then c.toString
    else "\\u\x7b" ++ String.ofList (Nat.toDigits 16 c.toNat) ++ "\x7d"

/-- A text between quotes, with what would not show escaped. -/
def quoted (s : String) : String :=
  "\"" ++ String.join (s.toList.map escapeChar) ++ "\""

/-- Items in brackets, with commas between. -/
def bracketed (items : List String) : String :=
  "[" ++ ", ".intercalate items ++ "]"

end DocQuery.Text
