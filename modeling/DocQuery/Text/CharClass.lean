/-! Classes of characters.

A class is the increasing list of the code points at which membership changes: the
first opens a range, the second closes it, and so on. `mem` asks whether an odd number
of them lies at or below a code point, by halving the list. -/
namespace DocQuery.Text

structure CharClass where
  bounds : Array Nat

namespace CharClass

/-- How many of `bounds[lo:hi]` lie at or below `c`, plus `lo`; the bounds before `lo`
do and those from `hi` on do not. -/
def countUpTo (bounds : Array Nat) (c lo hi : Nat) : Nat :=
  if h : lo < hi then
    let mid := (lo + hi) / 2
    if bounds.getD mid 0 ≤ c then countUpTo bounds c (mid + 1) hi else countUpTo bounds c lo mid
  else lo
termination_by hi - lo

def mem (k : CharClass) (c : Char) : Bool :=
  countUpTo k.bounds c.toNat 0 k.bounds.size % 2 == 1

end CharClass

end DocQuery.Text
