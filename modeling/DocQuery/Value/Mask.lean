import DocQuery.Value

/-! One bit mask for a list of masks.

The mask of a list has the bits that some member has, members being read as 64-bit
patterns; nulls are passed over. It is signed when every member is. -/
namespace DocQuery

/-- A member that is no whole number. -/
structure MaskError where
  label : String
  deriving DecidableEq, Repr

def MaskError.message (e : MaskError) : String :=
  "bit mask requires integer values, found " ++ e.label

namespace Value

/-- The mask of `items` on top of the bits in `mask`; `signed` tells that the members
before them were signed. -/
def maskFrom (mask : UInt64) (signed : Bool) : List Value → Except MaskError Value
  | [] => .ok (if signed then int mask.toInt64 else uint mask)
  | null :: rest => maskFrom mask signed rest
  | int n :: rest => maskFrom (mask ||| n.toUInt64) signed rest
  | uint n :: rest => maskFrom (mask ||| n) false rest
  | v :: _ => .error ⟨v.label⟩

def bitMask (items : List Value) : Except MaskError Value :=
  maskFrom 0 true items

end Value

end DocQuery
