import DocQuery.Json
import DocQuery.Text.Digits

/-! Reading JSON texts.

Each reader takes what is left of the text and returns a value and what is left after
it. A nested value is read with one unit of fuel less; a text never nests deeper than it
is long, so `Json.read` gives its length. -/
namespace DocQuery.Json

def isSpace (c : Char) : Bool :=
  c = ' ' || c = '\n' || c = '\r' || c = '\t'

def skipSpace (cs : List Char) : List Char :=
  cs.dropWhile isSpace

def readUnit : List Char → Option (Nat × List Char)
  | a :: b :: c :: d :: rest => do
    return ((← Text.hexValue? a) * 4096 + (← Text.hexValue? b) * 256 + (← Text.hexValue? c) * 16 +
      (← Text.hexValue? d), rest)
  | _ => none

/-- One code point after `\u`: a unit, or two that form a surrogate pair. -/
def readCodePoint (cs : List Char) : Option (Char × List Char) := do
  let (high, rest) ← readUnit cs
  if high < 0xD800 ∨ 0xDFFF < high then return (Char.ofNat high, rest)
  else match rest with
    | '\\' :: 'u' :: more =>
      let (low, rest) ← readUnit more
      if high < 0xDC00 ∧ 0xDC00 ≤ low ∧ low < 0xE000 then
        return (Char.ofNat (0x10000 + (high - 0xD800) * 1024 + (low - 0xDC00)), rest)
      else none
    | _ => none

/-- The rest of a string after its opening quote; `seen` holds the characters before,
last first. -/
def readString (fuel : Nat) (seen : List Char) (cs : List Char) :
    Option (String × List Char) :=
  match fuel, cs with
  | _ + 1, '"' :: rest => some (String.ofList seen.reverse, rest)
  | fuel + 1, '\\' :: 'u' :: rest => do
    let (c, rest) ← readCodePoint rest
    readString fuel (c :: seen) rest
  | fuel + 1, '\\' :: e :: rest =>
    match e with
    | 'n' => readString fuel ('\n' :: seen) rest
    | 't' => readString fuel ('\t' :: seen) rest
    | 'r' => readString fuel ('\r' :: seen) rest
    | 'b' => readString fuel ('\x08' :: seen) rest
    | 'f' => readString fuel ('\x0c' :: seen) rest
    | '"' | '\\' | '/' => readString fuel (e :: seen) rest
    | _ => none
  | fuel + 1, c :: rest => readString fuel (c :: seen) rest
  | _, _ => none

def readDigits (cs : List Char) : List Char × List Char :=
  (cs.takeWhile Char.isDigit, cs.dropWhile Char.isDigit)

def readExponent : List Char → Option (Option Int × List Char)
  | e :: rest =>
    if e = 'e' ∨ e = 'E' then
      let (negative, rest) := match rest with
        | '-' :: rest => (true, rest)
        | '+' :: rest => (false, rest)
        | rest => (false, rest)
      let (digits, rest) := readDigits rest
      if digits.isEmpty then none
      else
        let n : Int := Text.decimalValue digits
        some (some (if negative then -n else n), rest)
    else some (none, e :: rest)
  | [] => some (none, [])

def readNumber (cs : List Char) : Option (Json × List Char) := do
  let (negative, cs) := match cs with
    | '-' :: rest => (true, rest)
    | rest => (false, rest)
  let (whole, cs) := readDigits cs
  if whole.isEmpty then none
  let (fraction, cs) ← match cs with
    | '.' :: rest =>
      let (fraction, rest) := readDigits rest
      if fraction.isEmpty then none else some (some fraction, rest)
    | rest => some (none, rest)
  let (exponent, cs) ← readExponent cs
  let places := fraction.getD []
  let digits := Text.decimalValue (whole ++ places)
  if fraction.isNone && exponent.isNone && !(negative && digits == 0) then
    return (int (if negative then -digits else digits), cs)
  else
    return (float (Number.Binary64.ofDecimal negative digits
      (exponent.getD 0 - places.length)), cs)

def readWord (word : List Char) (value : Json) (cs : List Char) : Option (Json × List Char) :=
  if word.isPrefixOf cs then some (value, cs.drop word.length) else none

mutual

def readValue (fuel : Nat) (cs : List Char) : Option (Json × List Char) :=
  match fuel, cs with
  | fuel + 1, '"' :: rest => do
    let (s, rest) ← readString (fuel + 1) [] rest
    return (string s, rest)
  | fuel + 1, '[' :: rest =>
    match skipSpace rest with
    | ']' :: rest => some (array [], rest)
    | rest => do
      let (items, rest) ← readItems fuel rest
      return (array items, rest)
  | fuel + 1, '{' :: rest =>
    match skipSpace rest with
    | '}' :: rest => some (object [], rest)
    | rest => do
      let (members, rest) ← readMembers fuel rest
      return (object members, rest)
  | _ + 1, 't' :: rest => readWord "rue".toList (bool true) rest
  | _ + 1, 'f' :: rest => readWord "alse".toList (bool false) rest
  | _ + 1, 'n' :: rest => readWord "ull".toList null rest
  | _ + 1, rest => readNumber rest
  | 0, _ => none

def readItems (fuel : Nat) (cs : List Char) : Option (List Json × List Char) :=
  match fuel with
  | 0 => none
  | fuel + 1 => do
    let (item, rest) ← readValue fuel (skipSpace cs)
    match skipSpace rest with
    | ',' :: rest => do
      let (items, rest) ← readItems fuel rest
      return (item :: items, rest)
    | ']' :: rest => return ([item], rest)
    | _ => none

def readMembers (fuel : Nat) (cs : List Char) : Option (List (String × Json) × List Char) :=
  match fuel, skipSpace cs with
  | fuel + 1, '"' :: rest => do
    let (key, rest) ← readString (fuel + 1) [] rest
    match skipSpace rest with
    | ':' :: rest => do
      let (value, rest) ← readValue fuel (skipSpace rest)
      match skipSpace rest with
      | ',' :: rest => do
        let (members, rest) ← readMembers fuel rest
        return ((key, value) :: members, rest)
      | '}' :: rest => return ([(key, value)], rest)
      | _ => none
    | _ => none
  | _, _ => none

end

/-- Reads one value that takes up the whole text, blanks aside. -/
def read (text : String) : Option Json := do
  let cs := text.toList
  let (value, rest) ← readValue (cs.length + 1) (skipSpace cs)
  if (skipSpace rest).isEmpty then return value else none

end DocQuery.Json
