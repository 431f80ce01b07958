/-! The part of TOML that settings are written in: strings, whole numbers, empty arrays
and tables.

A table remembers how it came about, for that decides what may still be added to it. A
table under a header can be entered by the headers of tables inside it. A table from a
dotted key can also be entered by other dotted keys. An inline table is closed. -/
namespace DocQuery

/-- How a table came about. -/
inductive TableOrigin where
  /-- From the header of a table inside it. -/
  | implied
  /-- From its own header. -/
  | headed
  | dotted
  | inline
  deriving DecidableEq, Repr

inductive Toml where
  | string (s : String)
  | integer (n : Int)
  | emptyArray
  | table (origin : TableOrigin) (entries : List (String × Toml))

namespace Toml

abbrev Entries := List (String × Toml)

/-- Puts a value in the place of the one under `key`. -/
def replace (key : String) (v : Toml) (entries : Entries) : Entries :=
  entries.map fun (k, old) => (k, if k = key then v else old)

/-- Adds a value under a dotted key, which must be new. -/
def assign (v : Toml) : List String → Entries → Option Entries
  | [], _ => none
  | [key], entries =>
    if (entries.lookup key).isSome then none else some (entries ++ [(key, v)])
  | key :: rest, entries =>
    match entries.lookup key with
    | none => do
      let inner ← assign v rest []
      return entries ++ [(key, table .dotted inner)]
    | some (table .dotted inner) => do
      let inner ← assign v rest inner
      return replace key (table .dotted inner) entries
    | some _ => none

/-- Opens the table of a header, which may not have been opened before. -/
def openTable : List String → Entries → Option Entries
  | [], _ => none
  | [key], entries =>
    match entries.lookup key with
    | none => some (entries ++ [(key, table .headed [])])
    | some (table .implied inner) => some (replace key (table .headed inner) entries)
    | some _ => none
  | key :: rest, entries =>
    match entries.lookup key with
    | none => do
      let inner ← openTable rest []
      return entries ++ [(key, table .implied inner)]
    | some (table origin inner) =>
      if origin = .inline then none
      else do
        let inner ← openTable rest inner
        return replace key (table origin inner) entries
    | some _ => none

/-- Adds a value under a dotted key of the table that `header` opened. -/
def assignUnder (v : Toml) (path : List String) : List String → Entries → Option Entries
  | [], entries => assign v path entries
  | key :: header, entries =>
    match entries.lookup key with
    | some (table origin inner) => do
      let inner ← assignUnder v path header inner
      return replace key (table origin inner) entries
    | _ => none

end Toml

end DocQuery
