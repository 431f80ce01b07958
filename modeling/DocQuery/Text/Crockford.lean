/-! The 26 characters that stand for 128 bits, five bits a character and the highest
first, in Crockford's alphabet: the digits and the letters other than I, L, O and U.

The 26 characters have room for 130 bits; reading drops the two highest. -/
namespace DocQuery.Text.Crockford

def alphabet : List Char :=
  "0123456789ABCDEFGHJKMNPQRSTVWXYZ".toList

/-- The five bits of a character, in either letter case. -/
def digit? (c : Char) : Option Nat :=
  alphabet.idxOf? c.toUpper

def digits? : List Char → Option (List Nat)
  | [] => some []
  | c :: rest => do return (← digit? c) :: (← digits? rest)

/-- Reads exactly 26 characters of the alphabet. -/
def decode (s : String) : Option (BitVec 128) := do
  let digits ← digits? s.toList
  if digits.length = 26 then
    return BitVec.ofNat 128 (digits.foldl (fun n d => n * 32 + d) 0)
  else
    none

/-- The character for the five bits that lie `place` characters from the end. -/
def letter (bits : BitVec 128) (place : Nat) : Char :=
  alphabet.getD ((bits.toNat >>> (5 * place)) % 32) '0'

def encode (bits : BitVec 128) : String :=
  String.ofList ((List.range 26).reverse.map (letter bits))

end DocQuery.Text.Crockford
