/-! Condition trees.

A tree joins its leaves by conjunctions and disjunctions of any number of members. A
`group` is a pair of parentheses that someone wrote: it changes no meaning and is kept.
Normalizing merges a member into a group of its own kind, puts a sole member in the
group's place and drops empty groups; it keeps the leaves and their order.

`ofSequence` reads members joined by "and" and "or", where "and" binds tighter. -/
namespace DocQuery

inductive Joiner where
  | and
  | or
  deriving DecidableEq, Repr

inductive Tree (α : Type) where
  | leaf (a : α)
  /-- All of the members, or one of them. -/
  | node (j : Joiner) (members : List (Tree α))
  | group (inner : Tree α)
  deriving BEq

namespace Tree

variable {α β : Type}

/-- Nothing is left to test, parentheses aside. Only of a normalized tree does this say
that it has no leaf. -/
def isEmpty : Tree α → Bool
  | leaf _ => false
  | node _ members => members.isEmpty
  | group t => t.isEmpty

mutual

/-- The leaves from left to right. -/
def leaves : Tree α → List α
  | leaf a => [a]
  | node _ members => leavesAll members
  | group t => leaves t

def leavesAll : List (Tree α) → List α
  | [] => []
  | t :: rest => leaves t ++ leavesAll rest

end

/-! ### Meaning -/

mutual

/-- The truth of the tree when `truth` gives that of its leaves. -/
def eval (truth : α → Bool) : Tree α → Bool
  | leaf a => truth a
  | node .and members => evalEvery truth members
  | node .or members => evalSome truth members
  | group t => eval truth t

def evalEvery (truth : α → Bool) : List (Tree α) → Bool
  | [] => true
  | t :: rest => eval truth t && evalEvery truth rest

def evalSome (truth : α → Bool) : List (Tree α) → Bool
  | [] => false
  | t :: rest => eval truth t || evalSome truth rest

end

/-! ### Changing the leaves -/

mutual

/-- The tree with every leaf changed, visited from left to right. -/
def mapM {m : Type → Type} [Monad m] (f : α → m β) : Tree α → m (Tree β)
  | leaf a => leaf <$> f a
  | node j members => node j <$> mapAllM f members
  | group t => group <$> mapM f t

def mapAllM {m : Type → Type} [Monad m] (f : α → m β) : List (Tree α) → m (List (Tree β))
  | [] => pure []
  | t :: rest => do
    let t ← mapM f t
    let rest ← mapAllM f rest
    return t :: rest

end

/-! ### Normal form -/

/-- What a normalized member adds to a group joined by `j`. -/
def absorb (j : Joiner) : Tree α → List (Tree α)
  | node k members =>
    if k = j then members else if members.isEmpty then [] else [node k members]
  | t => [t]

/-- A group of one is its member. -/
def collapse (j : Joiner) : List (Tree α) → Tree α
  | [t] => t
  | members => node j members

/-- Parentheses around a single leaf or around nothing are dropped. -/
def parenthesize : Tree α → Tree α
  | leaf a => leaf a
  | t => if t.isEmpty then t else group t

mutual

def normalize : Tree α → Tree α
  | leaf a => leaf a
  | node j members => collapse j (normalizeAll j members)
  | group t => parenthesize (normalize t)

/-- The members of the normalized group joined by `j`. -/
def normalizeAll (j : Joiner) : List (Tree α) → List (Tree α)
  | [] => []
  | t :: rest => absorb j (normalize t) ++ normalizeAll j rest

end

/-- The normalized conjunction. -/
def all (members : List (Tree α)) : Tree α :=
  (node .and members).normalize

/-- The normalized disjunction. -/
def any (members : List (Tree α)) : Tree α :=
  (node .or members).normalize

/-- The normalized tree in parentheses. -/
def grouped (t : Tree α) : Tree α :=
  (group t).normalize

/-! ### Sequences -/

/-- A disjunction inside a conjunction is written in parentheses anyway, so those that
someone wrote around it are dropped. -/
def dropImplied : Tree α → Tree α
  | group (node .or members) => node .or members
  | t => t

/-- The run of "and"-joined members that `t` begins, and the runs after it; each later
member carries the joiner before it. -/
def runs (t : Tree α) : List (Joiner × Tree α) → List (Tree α) × List (List (Tree α))
  | [] => ([t], [])
  | (.and, u) :: rest => (t :: (runs u rest).1, (runs u rest).2)
  | (.or, u) :: rest => ([t], (runs u rest).1 :: (runs u rest).2)

/-- The conjunction of a run. -/
def ofRun (run : List (Tree α)) : Tree α :=
  if run.length > 1 then node .and (run.map dropImplied) else node .and run

/-- The tree of a sequence, where the first member's joiner says nothing. -/
def ofSequence? : List (Joiner × Tree α) → Option (Tree α)
  | [] => none
  | (_, t) :: rest =>
    let (first, more) := runs t rest
    some (node .or ((first :: more).map ofRun)).normalize

end Tree

end DocQuery
