import DocQuery.Number.Shortest

/-! Double-precision floating-point numbers, held as their 64 bits.

Two numbers are equal here when their bits are, so the two zeros differ. Only finite
numbers are read and written: `Binary64.text` prints the shortest decimal, with a point
or with an exponent as the `DecimalStyle` says. -/
namespace DocQuery.Number

structure Binary64 where
  bits : UInt64
  deriving DecidableEq, BEq, Repr

namespace Binary64

def negative (x : Binary64) : Bool :=
  x.bits.toNat >>> 63 == 1

/-- The eleven bits of the exponent. -/
def biased (x : Binary64) : Nat :=
  (x.bits.toNat >>> 52) % 2048

/-- The 52 bits of the fraction. -/
def fraction (x : Binary64) : Nat :=
  x.bits.toNat % (1 <<< 52)

/-- The number without its sign is `significand · 2 ^ exponent`. -/
def significand (x : Binary64) : Nat :=
  if x.biased = 0 then x.fraction else (1 <<< 52) + x.fraction

def exponent (x : Binary64) : Int :=
  (max x.biased 1 : Nat) - 1075

/-- The shortest decimal that reads back as the number without its sign. -/
def shortest (x : Binary64) : Decimal :=
  if x.significand = 0 then ⟨0, 0⟩
  else
    let halved := x.fraction = 0 ∧ 1 < x.biased
    ((Interval.ofBinary x.significand x.exponent halved).shortest).trim 17

/-- The nearest number to `± digits · 10 ^ exponent`. -/
def ofDecimal (negative : Bool) (digits : Nat) (exponent : Int) : Binary64 :=
  let magnitude := Float.ofScientific digits (exponent < 0) exponent.natAbs
  ⟨(if negative then -magnitude else magnitude).toBits⟩

end Binary64

/-- When digits are written out around a point, and how an exponent is written. -/
structure DecimalStyle where
  /-- The least exponent of a first digit that is written positionally. -/
  least : Int
  /-- The first exponent beyond those written positionally. -/
  bound : Int
  /-- What stands before an exponent that is not negative. -/
  plus : String

/-- Digits around a point that stands before the digit at `place`, and at least one
digit on either side. -/
def positional (digits : List Char) (place : Int) : String :=
  if place ≤ 0 then
    "0." ++ String.ofList (List.replicate (-place).toNat '0' ++ digits)
  else
    let whole := digits.take place.toNat
    let rest := digits.drop place.toNat
    String.ofList (whole ++ List.replicate (place.toNat - whole.length) '0') ++ "." ++
      (if rest.isEmpty then "0" else String.ofList rest)

/-- One digit, the others after a point, and the exponent of the first. -/
def scientific (digits : List Char) (exponent : Int) (plus : String) : String :=
  let rest := digits.drop 1
  String.ofList (digits.take 1) ++
    (if rest.isEmpty then "" else "." ++ String.ofList rest) ++ "e" ++
    (if exponent < 0 then "-" else plus) ++ toString exponent.natAbs

def Decimal.text (style : DecimalStyle) (d : Decimal) : String :=
  let digits := Nat.toDigits 10 d.digits
  let first := d.exponent + digits.length - 1
  if d.digits = 0 then "0.0"
  else if style.least ≤ first ∧ first < style.bound then positional digits (first + 1)
  else scientific digits first style.plus

def Binary64.text (style : DecimalStyle) (x : Binary64) : String :=
  (if x.negative then "-" else "") ++ x.shortest.text style

end DocQuery.Number
