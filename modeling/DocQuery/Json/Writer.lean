import DocQuery.Json
import DocQuery.Text.Digits

/-! Writing JSON texts, on one line and without blanks.

Doubles are written by their shortest digits, around a point from `1e-5` up to below
`1e16` and with a signed exponent elsewhere. -/
namespace DocQuery.Json

def floatStyle : Number.DecimalStyle := ⟨-5, 16, "+"⟩

/-- The escape of a code point by four hexadecimal digits. -/
def codeEscape (c : Char) : String :=
  "\\u" ++ String.ofList (Text.zeroPadded 4 (Nat.toDigits 16 c.toNat))

def writeChar (c : Char) : String :=
  match c with
  | '"' => "\\\""
  | '\\' => "\\\\"
  | '\n' => "\\n"
  | '\r' => "\\r"
  | '\t' => "\\t"
  | c => if c.toNat < 32 then codeEscape c else c.toString

def writeString (s : String) : String :=
  "\"" ++ String.join (s.toList.map writeChar) ++ "\""

mutual

def write : Json → String
  | null => "null"
  | bool b => if b then "true" else "false"
  | int n => toString n
  | float x => x.text floatStyle
  | string s => writeString s
  | array items => "[" ++ ",".intercalate (writeItems items) ++ "]"
  | object members => "\x7b" ++ ",".intercalate (writeMembers members) ++ "\x7d"

def writeItems : List Json → List String
  | [] => []
  | item :: rest => write item :: writeItems rest

def writeMembers : List (String × Json) → List String
  | [] => []
  | (key, value) :: rest => (writeString key ++ ":" ++ write value) :: writeMembers rest

end

end DocQuery.Json
