import DocQuery.Condition.Symbol

/-! Flat conditions: a tree as a list of terms.

A term carries the joiner before it and a signed number: that many parentheses open
before the term, or close after it. The sum of these numbers over the terms so far is
the depth. A list is well formed when the depth never falls below zero and ends there.

`encode` writes parentheses for the groups of a tree and for a disjunction or a
conjunction inside a conjunction. `decode` reads any well-formed list; it keeps as a group
every pair of parentheses except one around a disjunction inside a conjunction, or around
one term. -/
namespace DocQuery

structure FlatTerm (α : Type) where
  item : α
  /-- Joined to the term before it by "or". -/
  byOr : Bool := false
  /-- Belongs to the condition that connects a container. -/
  connect : Bool := false
  /-- Parentheses opened before the term, or closed after it if negative. -/
  delta : Int := 0
  deriving BEq

inductive FlatError where
  /-- The term at `index` closes a group that is not open. -/
  | unexpectedClose (index : Nat)
  /-- So many groups are open after the last term. -/
  | unclosedGroup (depth : Int)
  /-- The term at `index` opens a group that closes without any term. -/
  | emptyGroup (index : Nat)
  deriving DecidableEq, Repr

def FlatError.message : FlatError → String
  | unexpectedClose index =>
    "condition " ++ toString index ++ " closes a group that was never opened"
  | unclosedGroup depth => "condition list leaves " ++ toString depth ++ " group(s) open"
  | emptyGroup index =>
    "condition " ++ toString index ++ " opens a group that closes without any term"

namespace Flat

variable {α : Type}

/-- How many groups are open after the terms. -/
def depth : List (FlatTerm α) → Int
  | [] => 0
  | t :: rest => t.delta + depth rest

/-! ### Encoding -/

/-- Opens a group before the first term. -/
def openFirst : List (FlatTerm α) → List (FlatTerm α)
  | [] => []
  | t :: rest => { t with delta := t.delta + 1 } :: rest

/-- Closes a group after the last term. -/
def closeLast : List (FlatTerm α) → List (FlatTerm α)
  | [] => []
  | [t] => [{ t with delta := t.delta - 1 }]
  | t :: rest => t :: closeLast rest

/-- Puts the terms in parentheses. -/
def enclose (terms : List (FlatTerm α)) : List (FlatTerm α) :=
  closeLast (openFirst terms)

/-- Whether a member of a group joined by `j` is written in parentheses of its own. -/
def needsParens (j : Joiner) : Tree α → Bool
  | .node _ _ => j == .and
  | _ => false

mutual

/-- The terms of a tree whose first is joined to what stands before it as `byOr` says. -/
def terms (byOr : Bool) : Tree α → List (FlatTerm α)
  | .leaf a => [{ item := a, byOr := byOr }]
  | .node j members => memberTerms j byOr members
  | .group t => enclose (terms byOr t)

def memberTerms (j : Joiner) (byOr : Bool) : List (Tree α) → List (FlatTerm α)
  | [] => []
  | t :: rest =>
    (if needsParens j t then enclose (terms byOr t) else terms byOr t) ++
      memberTerms j (j == .or) rest

end

/-- The list of a tree in normal form; a tree without leaves has the empty list. -/
def encode (t : Tree α) : List (FlatTerm α) :=
  let t := t.normalize
  if t.isEmpty then [] else terms false t

/-! ### Decoding -/

/-- The depth after terms with these numbers that start at `depth`; the first of them
stands at `index`. -/
def balance (index : Nat) (depth : Int) : List Int → Except FlatError Int
  | [] => .ok depth
  | d :: rest =>
    if depth + d < 0 then .error (.unexpectedClose index)
    else balance (index + 1) (depth + d) rest

/-- The symbols of the term at `index`: the joiner before it, unless it is the first
term, and the parentheses that open before it or close after it. -/
def termSymbols (index : Nat) (t : FlatTerm α) : List (Symbol α) :=
  (if index = 0 then [] else [.joiner (if t.byOr then .or else .and)]) ++
    (List.replicate t.delta.toNat .openParen ++
      .atom t.item :: List.replicate (-t.delta).toNat .closeParen)

/-- The symbols of a list whose first term stands at `index`, each with the place of its
term. -/
def symbolsFrom (index : Nat) : List (FlatTerm α) → List (Nat × Symbol α)
  | [] => []
  | t :: rest => (termSymbols index t).map (fun x => (index, x)) ++ symbolsFrom (index + 1) rest

/-- Members of a group, each with the joiner before it, and the symbols after them. -/
abbrev Parsed (α : Type) := Except FlatError (List (Joiner × Tree α) × List (Nat × Symbol α))

/-- The symbols after the parenthesis that closes a group, if it is there. -/
def skipClose : List (Nat × Symbol α) → List (Nat × Symbol α)
  | (_, .closeParen) :: rest => rest
  | symbols => symbols

/-- The members `found`, and those that `later` gives if a joiner follows. -/
def withLater (later : Joiner → List (Nat × Symbol α) → Parsed α) (found : List (Joiner × Tree α)) :
    List (Nat × Symbol α) → Parsed α
  | (_, .joiner j) :: rest =>
    match later j rest with
    | .error e => .error e
    | .ok (more, rest) => .ok (found ++ more, rest)
  | symbols => .ok (found, symbols)

/-- The members of a group whose first is joined by `j`. The group ends where no member or
no joiner follows. Each member, also of a group inside, takes one from `fuel`; as many as
there are symbols are enough. -/
def readMembers : Nat → Joiner → List (Nat × Symbol α) → Parsed α
  | fuel + 1, j, (_, .atom a) :: rest => withLater (readMembers fuel) [(j, .leaf a)] rest
  | fuel + 1, j, (index, .openParen) :: rest =>
    match readMembers fuel .and rest with
    | .error e => .error e
    | .ok (inner, rest) =>
      match Tree.ofSequence? inner with
      | none => .error (.emptyGroup index)
      | some t => withLater (readMembers fuel) [(j, .group t)] (skipClose rest)
  | _, _, symbols => .ok ([], symbols)

/-- The tree of the symbols. What stands after the last member is passed over, unless it
closes a group. -/
def assemble (symbols : List (Nat × Symbol α)) : Except FlatError (Option (Tree α)) :=
  match readMembers symbols.length .and symbols with
  | .error e => .error e
  | .ok (_, (index, .closeParen) :: _) => .error (.unexpectedClose index)
  | .ok (found, _) => .ok (Tree.ofSequence? found)

/-- The tree of a well-formed list; the empty list has none. -/
def decode (list : List (FlatTerm α)) : Except FlatError (Option (Tree α)) := do
  let depth ← balance 0 0 (list.map fun t => t.delta)
  if 0 < depth then .error (.unclosedGroup depth)
  else assemble (symbolsFrom 0 list)

end Flat

end DocQuery
