import DocQuery.Condition.Tree

/-! Conditions written out: atoms, the joiners between them, and parentheses. -/
namespace DocQuery

inductive Symbol (α : Type) where
  | openParen
  | closeParen
  | joiner (j : Joiner)
  | atom (a : α)
  deriving DecidableEq, Repr

namespace Symbol

variable {α : Type}

/-- The symbols of `parts` with a joiner between each two. -/
def joined (j : Joiner) : List (List (Symbol α)) → List (Symbol α)
  | [] => []
  | [part] => part
  | part :: rest => part ++ joiner j :: joined j rest

def parenthesized (symbols : List (Symbol α)) : List (Symbol α) :=
  openParen :: (symbols ++ [closeParen])

end Symbol

end DocQuery
