import DocQuery.Text.Digits

/-! Strings in TOML.

A string is written between double quotes, where a backslash escapes, or between single
quotes, as it is; between three of either it may run over several lines, and a line break
right after the opening quotes is not part of it. `write` takes the first form of these
that needs no escapes, in the order of one double quote, one single quote, three double
quotes and three single quotes, and failing that escapes between double quotes. A tab
counts as needing none, though between double quotes it is escaped. -/
namespace DocQuery.Toml

/-- Cannot stand in a string except as an escape; tabs and line breaks aside. -/
def isControl (c : Char) : Bool :=
  (c.toNat < 32 && c != '\t' && c != '\n') || c.toNat == 127

/-- The length of the longest run of `q`; `run` of them come before. -/
def longestRun (q : Char) (run : Nat) : List Char → Nat
  | [] => run
  | c :: rest => if c = q then longestRun q (run + 1) rest else max run (longestRun q 0 rest)

/-! ### Writing -/

def hex4 (n : Nat) : List Char :=
  Text.zeroPadded 4 ((Nat.toDigits 16 n).map Char.toUpper)

/-- The escape of a character that cannot stand between double quotes as it is. -/
def escape (c : Char) : List Char :=
  match c with
  | '\x08' => ['\\', 'b']
  | '\t' => ['\\', 't']
  | '\n' => ['\\', 'n']
  | '\x0c' => ['\\', 'f']
  | '\r' => ['\\', 'r']
  | '"' => ['\\', '"']
  | '\\' => ['\\', '\\']
  | c => '\\' :: 'u' :: hex4 c.toNat

/-- The characters between double quotes. Line breaks stay if `multiline` is set; so do
quotes unless `limit` of them, `run` so far, would be exceeded in a row. -/
def escapeAll (multiline : Bool) (limit run : Nat) : List Char → List Char
  | [] => []
  | c :: rest =>
    if c = '"' then
      if run < limit then c :: escapeAll multiline limit (run + 1) rest
      else escape c ++ escapeAll multiline limit 0 rest
    else if isControl c || c = '\t' || c = '\\' || (c = '\n' && !multiline) then
      escape c ++ escapeAll multiline limit 0 rest
    else c :: escapeAll multiline limit 0 rest

def basic (cs : List Char) : List Char :=
  '"' :: (escapeAll false 0 0 cs ++ ['"'])

def literal (cs : List Char) : List Char :=
  '\'' :: (cs ++ ['\''])

/-- A line break goes after the opening quotes if there is one in the string. -/
def leading (cs : List Char) : List Char :=
  if cs.contains '\n' then ['\n'] else []

def multilineBasic (cs : List Char) : List Char :=
  ['"', '"', '"'] ++ leading cs ++ escapeAll true 2 0 cs ++ ['"', '"', '"']

def multilineLiteral (cs : List Char) : List Char :=
  ['\'', '\'', '\''] ++ leading cs ++ cs ++ ['\'', '\'', '\'']

def writeChars (cs : List Char) : List Char :=
  let plain := !cs.any isControl
  let breaks := cs.contains '\n'
  let single := longestRun '\'' 0 cs
  let double := longestRun '"' 0 cs
  let escapes := cs.contains '\\'
  if plain && !escapes && double == 0 && !breaks then basic cs
  else if plain && single == 0 && !breaks then literal cs
  else if plain && !escapes && double ≤ 2 then multilineBasic cs
  else if plain && single ≤ 2 then multilineLiteral cs
  else if breaks then multilineBasic cs
  else basic cs

def write (s : String) : String :=
  String.ofList (writeChars s.toList)

/-! ### Reading -/

/-- The character whose code point is given by exactly `count` hexadecimal digits. -/
def readHex (count value : Nat) (cs : List Char) : Option (Char × List Char) :=
  match count, cs with
  | 0, cs => if h : value.isValidChar then some (Char.ofNatAux value h, cs) else none
  | count + 1, c :: rest => do readHex count (value * 16 + (← Text.hexValue? c)) rest
  | _, [] => none

/-- The character that an escape stands for, after the backslash. -/
def readEscape : List Char → Option (Char × List Char)
  | 'b' :: rest => some ('\x08', rest)
  | 't' :: rest => some ('\t', rest)
  | 'n' :: rest => some ('\n', rest)
  | 'f' :: rest => some ('\x0c', rest)
  | 'r' :: rest => some ('\r', rest)
  | 'e' :: rest => some ('\x1b', rest)
  | '"' :: rest => some ('"', rest)
  | '\\' :: rest => some ('\\', rest)
  | 'x' :: rest => readHex 2 0 rest
  | 'u' :: rest => readHex 4 0 rest
  | 'U' :: rest => readHex 8 0 rest
  | _ => none

/-- What follows a line break, written with or without a carriage return. -/
def lineBreak? : List Char → Option (List Char)
  | '\n' :: rest => some rest
  | '\r' :: '\n' :: rest => some rest
  | _ => none

/-- Drops blanks and line breaks. -/
def skipLines : List Char → List Char
  | ' ' :: rest | '\t' :: rest | '\n' :: rest | '\r' :: '\n' :: rest => skipLines rest
  | cs => cs

/-- What follows a backslash at the end of a line: the next line that is not blank. -/
def continued? (cs : List Char) : Option (List Char) :=
  match lineBreak? (cs.dropWhile fun c => c = ' ' || c = '\t') with
  | some rest => some (skipLines rest)
  | none => none

/-- The rest of a string on one line, up to the quote that closes it. -/
def readLine (q : Char) (fuel : Nat) (cs : List Char) : Option (List Char × List Char) :=
  match fuel, cs with
  | fuel + 1, c :: rest =>
    if c = q then some ([], rest)
    else if c = '\\' ∧ q = '"' then do
      let (c, rest) ← readEscape rest
      let (cs, rest) ← readLine q fuel rest
      return (c :: cs, rest)
    else if isControl c || c = '\n' then none
    else do
      let (cs, rest) ← readLine q fuel rest
      return (c :: cs, rest)
  | _, _ => none

/-- The rest of a string over several lines. Up to two quotes before the three that close
it belong to it. -/
def readLines (q : Char) (fuel : Nat) (cs : List Char) : Option (List Char × List Char) :=
  match fuel with
  | 0 => none
  | fuel + 1 =>
    let quotes := min 5 (cs.takeWhile (· = q)).length
    if 3 ≤ quotes then some (List.replicate (quotes - 3) q, cs.drop quotes)
    else match cs with
      | [] => none
      | c :: rest =>
        if c = '\\' ∧ q = '"' then
          match continued? rest with
          | some rest => readLines q fuel rest
          | none => do
            let (c, rest) ← readEscape rest
            let (cs, rest) ← readLines q fuel rest
            return (c :: cs, rest)
        else match lineBreak? (c :: rest) with
          | some rest => do
            let (cs, rest) ← readLines q fuel rest
            return ('\n' :: cs, rest)
          | none =>
            if isControl c then none
            else do
              let (cs, rest) ← readLines q fuel rest
              return (c :: cs, rest)

/-- A string in any of its forms. -/
def readString (cs : List Char) : Option (List Char × List Char) :=
  match cs with
  | q :: rest =>
    if q = '"' ∨ q = '\'' then
      match rest with
      | a :: b :: rest =>
        if a = q ∧ b = q then readLines q (rest.length + 1) ((lineBreak? rest).getD rest)
        else readLine q (rest.length + 3) (a :: b :: rest)
      | rest => readLine q (rest.length + 1) rest
    else none
  | [] => none

end DocQuery.Toml
