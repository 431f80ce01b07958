import DocQuery.Condition.Flat

/-! Disjunctive normal form: a condition as a list of conjunctions, one of which must
hold.

A conjunction takes one of the disjuncts of each of its members, in every combination,
the first member's choice varying slowest. The number of disjuncts is worked out before
any is built; it stops growing at `countLimit`. -/
namespace DocQuery

/-- Items that hold together. -/
abbrev Conjunct (α : Type) := List α

/-- The greatest number of disjuncts that is counted, the last of 64 bits. -/
def countLimit : Nat := 18446744073709551615

def defaultDisjunctLimit : Nat := 1024

inductive DisjunctError where
  | tooMany (count limit : Nat)
  | flat (e : FlatError)
  deriving DecidableEq, Repr

def DisjunctError.message : DisjunctError → String
  | tooMany count limit =>
    "condition expands to " ++ toString count ++ " AND groups, above the limit of " ++
      toString limit
  | flat e => e.message

namespace Tree

variable {α : Type}

mutual

/-- The number of disjuncts, or `countLimit` if there are more. -/
def disjunctCount : Tree α → Nat
  | leaf _ => 1
  | node .and members => countProduct 1 members
  | node .or members => countSum 0 members
  | group t => disjunctCount t

def countSum (total : Nat) : List (Tree α) → Nat
  | [] => total
  | t :: rest => countSum (min (total + disjunctCount t) countLimit) rest

def countProduct (total : Nat) : List (Tree α) → Nat
  | [] => total
  | t :: rest => countProduct (min (total * disjunctCount t) countLimit) rest

end

mutual

def expand : Tree α → List (Conjunct α)
  | leaf a => [[a]]
  | node .and members => expandEvery members
  | node .or members => expandSome members
  | group t => expand t

/-- One disjunct of every member. -/
def expandEvery : List (Tree α) → List (Conjunct α)
  | [] => [[]]
  | t :: rest =>
    let others := expandEvery rest
    (expand t).flatMap fun c => others.map fun d => c ++ d

/-- The disjuncts of all members. -/
def expandSome : List (Tree α) → List (Conjunct α)
  | [] => []
  | t :: rest => expand t ++ expandSome rest

end

/-- The disjuncts of a condition, if there are no more than `limit`; a condition without
leaves has none. -/
def disjuncts (t : Tree α) (limit : Nat) : Except DisjunctError (List (Conjunct α)) :=
  let t := t.normalize
  if t.isEmpty then .ok []
  else if limit < t.disjunctCount then .error (.tooMany t.disjunctCount limit)
  else .ok t.expand

end Tree

namespace Conjunct

variable {α : Type}

/-- Every item holds. -/
def holds (truth : α → Bool) (c : Conjunct α) : Bool :=
  c.all truth

def toTree (c : Conjunct α) : Tree α :=
  Tree.all (c.map Tree.leaf)

/-- The normalized tree of all disjuncts; there is none without leaves. -/
def rejoin (cs : List (Conjunct α)) : Option (Tree α) :=
  let t := Tree.any (cs.map toTree)
  if t.isEmpty then none else some t

end Conjunct

/-- The disjuncts of a flat condition. -/
def Flat.disjuncts {α : Type} (list : List (FlatTerm α)) (limit : Nat) :
    Except DisjunctError (List (Conjunct α)) :=
  match decode list with
  | .error e => .error (.flat e)
  | .ok none => .ok []
  | .ok (some t) => t.disjuncts limit

end DocQuery
