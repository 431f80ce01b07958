/-! The shortest decimal of a binary floating-point number.

A finite number other than zero is `m · 2 ^ q`. Every real between the midpoints to its
two neighbours rounds to it, a midpoint itself when `m` is even. `shortest` is the
decimal with the fewest digits among those reals, the nearest of these to the number,
and of two equally near the greater. It looks at the grids of one digit, two digits and
so on: a grid that meets the interval meets it at one of the two grid points around the
number. Seventeen digits always suffice. -/
namespace DocQuery.Number

/-- The decimal `digits · 10 ^ exponent`. -/
structure Decimal where
  digits : Nat
  exponent : Int
  deriving DecidableEq, Repr

/-- A positive number and the interval that rounds to it, as numerators over one
denominator. -/
structure Interval where
  low : Nat
  value : Nat
  high : Nat
  denominator : Nat
  /-- Whether `low` and `high` belong to the interval. -/
  closed : Bool

/-- The reals that round to `m · 2 ^ q`. Where `lowGap` is set the neighbour below is
half as far away as the one above. -/
def Interval.ofBinary (m : Nat) (q : Int) (lowGap : Bool) : Interval :=
  let up := 1 <<< (q - 2).toNat
  { low := (4 * m - if lowGap then 1 else 2) * up
    value := 4 * m * up
    high := (4 * m + 2) * up
    denominator := 1 <<< (2 - q).toNat
    closed := m % 2 == 0 }

/-- Whether `c · 10 ^ k` lies in the interval. -/
def Interval.holds (i : Interval) (c : Nat) (k : Int) : Bool :=
  let x := c * Nat.pow 10 k.toNat * i.denominator
  let unit := Nat.pow 10 (-k).toNat
  if i.closed then i.low * unit ≤ x && x ≤ i.high * unit
  else i.low * unit < x && x < i.high * unit

/-- The exponent of the first decimal digit. The numbers in question are above
`10 ^ (-400)`. -/
def Interval.leading (i : Interval) : Int :=
  ((Nat.toDigits 10 (i.value * Nat.pow 10 400 / i.denominator)).length : Int) - 401

/-- The best decimal on the grid of multiples of `10 ^ k`, if the grid meets the
interval. -/
def Interval.onGrid? (i : Interval) (k : Int) : Option Decimal :=
  let unit := Nat.pow 10 (-k).toNat
  let scale := Nat.pow 10 k.toNat * i.denominator
  let c := i.value * unit / scale
  match i.holds c k, i.holds (c + 1) k with
  | false, false => none
  | true, false => some ⟨c, k⟩
  | false, true => some ⟨c + 1, k⟩
  | true, true => some ⟨if 2 * (i.value * unit - c * scale) < scale then c else c + 1, k⟩

def Interval.shortest (i : Interval) : Decimal :=
  ((List.range 17).findSome? fun (n : Nat) => i.onGrid? (i.leading - n)).getD ⟨0, 0⟩

/-- The same decimal without zeros at the end of its digits; `fuel` bounds their count. -/
def Decimal.trim : Nat → Decimal → Decimal
  | 0, d => d
  | fuel + 1, d =>
    if d.digits % 10 = 0 then trim fuel ⟨d.digits / 10, d.exponent + 1⟩ else d

end DocQuery.Number
