import DocQuery.Text.CaseTable

/-! Lower case, by the full Unicode mapping.

A capital sigma that ends a word becomes a final sigma; whether it ends a word depends
on the letters around it, so a text is mapped as a whole (`lowerCase`). Every other
character is mapped alone (`lowerChar`), to one character or, for the dotted capital I,
to two. -/
namespace DocQuery.Text

/-- The lower case of a character on its own. -/
def lowerChar (c : Char) : List Char :=
  if c.toNat < 128 then [c.toLower]
  else if c = 'İ' then ['i', '\u0307']
  else
    let n := c.toNat
    match lowerShifts.find? fun (first, last, step, _) =>
        first ≤ n && n ≤ last && (n - first) % step == 0 with
    | some (_, _, _, shift) => [Char.ofNat (Int.toNat (n + shift))]
    | none => [c]

/-- The first character that counts when looking for a word's edge is a cased letter. -/
def startsCased (cs : List Char) : Bool :=
  (cs.dropWhile caseIgnorables.mem).head?.any casedLetters.mem

/-- The lower case of a sigma between the characters `before` it, nearest first, and
those `after` it. -/
def lowerSigma (before after : List Char) : Char :=
  if startsCased before && !startsCased after then 'ς' else 'σ'

/-- The lower case of the characters after those in `before`, which is nearest first. -/
def lowerAfter (before : List Char) : List Char → List Char
  | [] => []
  | c :: rest =>
    (if c = 'Σ' then [lowerSigma before rest] else lowerChar c) ++ lowerAfter (c :: before) rest

def lowerCase (s : String) : String :=
  String.ofList (lowerAfter [] s.toList)

end DocQuery.Text
