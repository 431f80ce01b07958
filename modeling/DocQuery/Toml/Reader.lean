import DocQuery.Toml
import DocQuery.Toml.Quoted

/-! Reading TOML texts.

A text is a list of lines, each blank, an assignment or a header. `read` gives the
entries of the table they build, and nothing for a text that is no TOML or that holds a
value outside `Toml`. -/
namespace DocQuery.Toml

def skipSpace (cs : List Char) : List Char :=
  cs.dropWhile fun c => c = ' ' || c = '\t'

def isBare (c : Char) : Bool :=
  c.isAlphanum || c = '_' || c = '-'

/-- One name of a key, bare or quoted on one line. -/
def readName (cs : List Char) : Option (String × List Char) :=
  match cs with
  | c :: rest =>
    if c = '"' ∨ c = '\'' then
      (readLine c (rest.length + 1) rest).map fun (name, rest) => (String.ofList name, rest)
    else
      let name := cs.takeWhile isBare
      if name.isEmpty then none else some (String.ofList name, cs.drop name.length)
  | [] => none

/-- A key: names with dots between. -/
def readKey (fuel : Nat) (cs : List Char) : Option (List String × List Char) :=
  match fuel with
  | 0 => none
  | fuel + 1 => do
    let (name, rest) ← readName (skipSpace cs)
    match skipSpace rest with
    | '.' :: rest =>
      let (names, rest) ← readKey fuel rest
      return (name :: names, rest)
    | rest => return ([name], rest)

/-! ### Numbers -/

def digitIn? (radix : Nat) (c : Char) : Option Nat := do
  let d ← Text.hexValue? c
  if d < radix then some d else none

/-- Digits after the first, among which an underscore may stand before a digit. -/
def readDigits (radix : Nat) (value : Nat) : List Char → Option (Nat × List Char)
  | '_' :: c :: rest => do readDigits radix (value * radix + (← digitIn? radix c)) rest
  | '_' :: [] => none
  | c :: rest =>
    match digitIn? radix c with
    | some d => readDigits radix (value * radix + d) rest
    | none => some (value, c :: rest)
  | [] => some (value, [])

def readNatural (radix : Nat) : List Char → Option (Nat × List Char)
  | c :: rest => do readDigits radix (← digitIn? radix c) rest
  | [] => none

/-- A decimal number without needless zeros. -/
def readDecimal : List Char → Option (Nat × List Char)
  | '0' :: c :: rest => if c = '_' || c.isDigit then none else some (0, c :: rest)
  | cs => readNatural 10 cs

def readInteger : List Char → Option (Int × List Char)
  | '0' :: 'x' :: rest => (readNatural 16 rest).map fun (n, rest) => ((n : Int), rest)
  | '0' :: 'o' :: rest => (readNatural 8 rest).map fun (n, rest) => ((n : Int), rest)
  | '0' :: 'b' :: rest => (readNatural 2 rest).map fun (n, rest) => ((n : Int), rest)
  | '-' :: rest => (readDecimal rest).map fun (n, rest) => (-(n : Int), rest)
  | '+' :: rest => (readDecimal rest).map fun (n, rest) => ((n : Int), rest)
  | cs => (readDecimal cs).map fun (n, rest) => ((n : Int), rest)

/-! ### Values -/

/-- The end of a line without its comment; none if the comment holds a control
character. -/
def skipComment : List Char → Option (List Char)
  | '#' :: rest =>
    let comment := rest.takeWhile fun c => c != '\n' && c != '\r'
    if comment.any isControl then none else some (rest.drop comment.length)
  | cs => some cs

/-- Drops blanks, line breaks and comments. -/
def skipFiller (fuel : Nat) (cs : List Char) : Option (List Char) :=
  match fuel with
  | 0 => none
  | fuel + 1 => do
    let rest ← skipComment (skipSpace cs)
    match lineBreak? rest with
    | some rest => skipFiller fuel rest
    | none => return rest

mutual

def readValue (fuel : Nat) (cs : List Char) : Option (Toml × List Char) :=
  match fuel, cs with
  | fuel + 1, '[' :: rest => do
    match ← skipFiller (fuel + 1) rest with
    | ']' :: rest => return (emptyArray, rest)
    | _ => none
  | fuel + 1, '{' :: rest => do
    match ← skipFiller (fuel + 1) rest with
    | '}' :: rest => return (table .inline [], rest)
    | rest =>
      let (entries, rest) ← readInline fuel [] rest
      return (table .inline entries, rest)
  | _ + 1, c :: rest =>
    if c = '"' ∨ c = '\'' then
      (readString (c :: rest)).map fun (s, rest) => (string (String.ofList s), rest)
    else (readInteger (c :: rest)).map fun (n, rest) => (integer n, rest)
  | _, _ => none

/-- The rest of an inline table that holds `entries` so far. -/
def readInline (fuel : Nat) (entries : Entries) (cs : List Char) :
    Option (Entries × List Char) :=
  match fuel with
  | 0 => none
  | fuel + 1 => do
    let (key, rest) ← readKey (fuel + 1) cs
    match rest with
    | '=' :: rest =>
      let (v, rest) ← readValue fuel (skipSpace rest)
      let entries ← assign v key entries
      match ← skipFiller (fuel + 1) rest with
      | ',' :: rest =>
        match ← skipFiller (fuel + 1) rest with
        | '}' :: rest => return (entries, rest)
        | rest => readInline fuel entries rest
      | '}' :: rest => return (entries, rest)
      | _ => none
    | _ => none

end

/-! ### Lines -/

/-- What follows the end of a line: blanks, a comment and a line break or the end. -/
def endLine (cs : List Char) : Option (List Char) := do
  match ← skipComment (skipSpace cs) with
  | [] => return []
  | rest => lineBreak? rest

/-- The entries after the lines of a text; `header` is the table that is open. -/
def readTable (fuel : Nat) (header : List String) (entries : Entries) (cs : List Char) :
    Option Entries :=
  match fuel with
  | 0 => none
  | fuel + 1 =>
    match skipSpace cs with
    | [] => some entries
    | '[' :: rest => do
      let (header, rest) ← readKey (rest.length + 1) rest
      match rest with
      | ']' :: rest =>
        let entries ← openTable header entries
        readTable fuel header entries (← endLine rest)
      | _ => none
    | cs =>
      match endLine cs with
      | some rest => readTable fuel header entries rest
      | none => do
        let (key, rest) ← readKey (cs.length + 1) cs
        match rest with
        | '=' :: rest =>
          let (v, rest) ← readValue (rest.length + 1) (skipSpace rest)
          let entries ← assignUnder v key header entries
          readTable fuel header entries (← endLine rest)
        | _ => none

def dropMark : List Char → List Char
  | '\uFEFF' :: rest => rest
  | cs => cs

def read (text : String) : Option Entries :=
  let cs := dropMark text.toList
  readTable (cs.length + 1) [] [] cs

end DocQuery.Toml
