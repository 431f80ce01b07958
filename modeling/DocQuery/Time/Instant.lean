import DocQuery.Text.Blank
import DocQuery.Text.Digits
import DocQuery.Time.Calendar

/-! Instants of universal time, to the nanosecond.

They are read from RFC 3339 texts, leniently: blanks may stand between the parts, a
number may lack its leading zeros, a year outside 0000 to 9999 needs a sign, the offset
may be written without a colon or as `UTC`. A leap second is the second before it with
more than a billion nanoseconds. They are written in universal time with as many groups
of three fraction digits as the value needs. -/
namespace DocQuery.Time

structure Instant where
  /-- Seconds since the beginning of 1970. -/
  second : Int
  /-- Nanoseconds into that second; `10 ^ 9` and above during a leap second. -/
  nano : Nat
  deriving DecidableEq, BEq, Repr

/-! ### Writing -/

def padded (width n : Nat) : String :=
  String.ofList (Text.zeroPadded width (Nat.toDigits 10 n))

def yearText (year : Int) : String :=
  if 0 ≤ year ∧ year ≤ 9999 then padded 4 year.toNat
  else (if year < 0 then "-" else "+") ++ padded 4 year.natAbs

/-- The fewest groups of three digits that give the fraction exactly. -/
def fractionText (nano : Nat) : String :=
  if nano = 0 then ""
  else if nano % 1000000 = 0 then "." ++ padded 3 (nano / 1000000)
  else if nano % 1000 = 0 then "." ++ padded 6 (nano / 1000)
  else "." ++ padded 9 nano

def Instant.text (t : Instant) : String :=
  let date := Date.ofDays (t.second / 86400)
  let inDay := (t.second % 86400).toNat
  let leap := t.nano / 1000000000
  yearText date.year ++ "-" ++ padded 2 date.month ++ "-" ++ padded 2 date.day ++ "T" ++
    padded 2 (inDay / 3600) ++ ":" ++ padded 2 (inDay / 60 % 60) ++ ":" ++
    padded 2 (inDay % 60 + leap) ++ fractionText (t.nano % 1000000000) ++ "Z"

/-! ### Reading -/

def skipBlanks (cs : List Char) : List Char :=
  cs.dropWhile Text.isBlank

def expect (c : Char) : List Char → Option (List Char)
  | [] => none
  | d :: rest => if d = c then some rest else none

/-- At least one digit and at most `width` of them. -/
def readNumber (width : Nat) (cs : List Char) : Option (Nat × List Char) :=
  let digits := (cs.take width).takeWhile Char.isDigit
  if digits.isEmpty then none else some (Text.decimalValue digits, cs.drop digits.length)

/-- Up to four digits, or a sign and any number of them. -/
def readYear : List Char → Option (Int × List Char)
  | '-' :: cs => (readNumber cs.length cs).map fun (n, rest) => (-(n : Int), rest)
  | '+' :: cs => (readNumber cs.length cs).map fun (n, rest) => ((n : Int), rest)
  | cs => (readNumber 4 cs).map fun (n, rest) => ((n : Int), rest)

/-- Nanoseconds after a point, if there is one; digits beyond the ninth are dropped. -/
def readFraction : List Char → Option (Nat × List Char)
  | '.' :: cs =>
    let digits := cs.takeWhile Char.isDigit
    if digits.isEmpty then none
    else
      let kept := digits.take 9
      some (Text.decimalValue kept * Nat.pow 10 (9 - kept.length), cs.drop digits.length)
  | cs => some (0, cs)

def twoDigits : List Char → Option (Nat × List Char)
  | a :: b :: rest => if a.isDigit && b.isDigit then some (Text.decimalValue [a, b], rest) else none
  | _ => none

/-- Seconds east of universal time. -/
def readOffset : List Char → Option (Int × List Char)
  | 'Z' :: rest | 'z' :: rest => some (0, rest)
  | sign :: cs => do
    if cs.length ≥ 2 ∧ ((sign :: cs).take 3).map Char.toUpper = ['U', 'T', 'C'] then
      return (0, cs.drop 2)
    let (hours, cs) ← twoDigits cs
    let (minutes, cs) ← twoDigits (cs.dropWhile fun c => c = ':' || Text.isBlank c)
    if 59 < minutes ∨ 23 < hours then none
    else
      let seconds : Int := (hours * 3600 + minutes * 60 : Nat)
      if sign = '+' then return (seconds, cs)
      else if sign = '-' ∨ sign = '−' then return (-seconds, cs)
      else none
  | [] => none

def readSeparator : List Char → Option (List Char)
  | 't' :: rest | 'T' :: rest | ' ' :: rest => some rest
  | _ => none

def Instant.read (s : String) : Option Instant := do
  let (year, cs) ← readYear (skipBlanks s.toList)
  let cs ← expect '-' (skipBlanks cs)
  let (month, cs) ← readNumber 2 (skipBlanks cs)
  let cs ← expect '-' (skipBlanks cs)
  let (day, cs) ← readNumber 2 (skipBlanks cs)
  let cs ← readSeparator cs
  let (hour, cs) ← readNumber 2 (skipBlanks cs)
  let cs ← expect ':' (skipBlanks cs)
  let (minute, cs) ← readNumber 2 (skipBlanks cs)
  let cs ← expect ':' (skipBlanks cs)
  let (second, cs) ← readNumber 2 (skipBlanks cs)
  let (nano, cs) ← readFraction cs
  let (offset, cs) ← readOffset (skipBlanks cs)
  let date : Date := ⟨year, month, day⟩
  if (skipBlanks cs).isEmpty && date.valid && hour ≤ 23 && minute ≤ 59 && second ≤ 60 then
    let inDay : Int := (hour * 3600 + minute * 60 + min second 59 : Nat)
    let total := date.toDays * 86400 + inDay - offset
    if (Date.ofDays (total / 86400)).valid then
      return ⟨total, nano + (second - 59) * 1000000000⟩
    else none
  else none

end DocQuery.Time
