import DocQuery.Condition.Symbol
import DocQuery.Sql.Dialect

/-! Compiled conditions: terms, and the symbols that join them.

A term is one comparison as the database sees it. The values it compares with are bound
apart from the text; a term refers to them by their places. A compiled condition is a
list of tokens, the symbols with terms for atoms, and its text is theirs one after the
other. -/
namespace DocQuery.Sql

/-- A column or a path into one, with the qualifier of what it belongs to. -/
structure Column where
  qualifier : String
  names : List String
  deriving DecidableEq, Repr

/-- What a column is compared with. -/
inductive Side where
  /-- The value bound at a place. -/
  | bound (place : Nat)
  | column (c : Column)
  deriving DecidableEq, Repr

inductive Term where
  | nullTest (negated : Bool) (c : Column)
  /-- Both sides are brought to lower case if `fold` is set. -/
  | compare (symbol : String) (fold : Bool) (c : Column) (other : Side)
  /-- The column is one of the values on the other side. -/
  | member (negated fold : Bool) (c : Column) (other : Side)
  /-- One of several pairs stands in parentheses of its own. -/
  | range (negated parens : Bool) (c : Column) (low high : Nat)
  /-- All bits of `mask` are set; `again` is the mask once more. -/
  | allBits (c : Column) (mask again : Side)
  /-- Some bit of `mask` is set. -/
  | someBits (c : Column) (mask : Side)
  | never
  deriving DecidableEq, Repr

abbrev Token := Symbol Term

/-! ### Text -/

def Column.text (d : Dialect) (c : Column) : String :=
  (if c.qualifier.isEmpty then "" else c.qualifier ++ ".") ++ ".".intercalate (c.names.map d.quote)

def Side.text (d : Dialect) : Side → String
  | bound place => d.placeholder place
  | column c => c.text d

/-- The text inside a call of the lower-case function, if `fold` is set. -/
def folded (d : Dialect) (fold : Bool) (text : String) : String :=
  if fold then d.lowerFn ++ "(" ++ text ++ ")" else text

/-- The text in parentheses. -/
def inParens (text : String) : String :=
  "(" ++ text ++ ")"

/-- The values on the other side of a membership test. -/
def Side.elements (d : Dialect) : Side → String
  | bound place => "ANY(ARRAY[" ++ d.placeholder place ++ "])"
  | column c => "ANY(" ++ c.text d ++ ")"

def Term.text (d : Dialect) : Term → String
  | nullTest negated c => c.text d ++ if negated then " IS NOT NULL" else " IS NULL"
  | compare symbol fold c other =>
    folded d fold (c.text d) ++ " " ++ symbol ++ " " ++ folded d fold (other.text d)
  | member negated fold c other =>
    let test := folded d fold (c.text d) ++ " = " ++ other.elements d
    if negated then "NOT " ++ inParens test else test
  | range negated parens c low high =>
    let test := c.text d ++ (if negated then " NOT BETWEEN " else " BETWEEN ") ++
      d.placeholder low ++ " AND " ++ d.placeholder high
    if parens then inParens test else test
  | allBits c mask again =>
    inParens (c.text d ++ " & " ++ mask.text d) ++ " = " ++ again.text d
  | someBits c mask => inParens (c.text d ++ " & " ++ mask.text d) ++ " <> 0"
  | never => d.falseLiteral

def joinerText : Joiner → String
  | .and => " AND "
  | .or => " OR "

def Token.text (d : Dialect) : Token → String
  | .openParen => "("
  | .closeParen => ")"
  | .joiner j => joinerText j
  | .atom t => t.text d

def render (d : Dialect) (tokens : List Token) : String :=
  String.join (tokens.map fun t => Token.text d t)

end DocQuery.Sql
