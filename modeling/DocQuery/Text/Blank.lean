import DocQuery.Text.CharClass

/-! White space: the characters that carry the Unicode property `White_Space`. -/
namespace DocQuery.Text

def blanks : CharClass := ⟨#[
  9, 14, 32, 33, 133, 134, 160, 161, 5760, 5761, 8192, 8203, 8232, 8234, 8239, 8240, 8287, 8288,
  12288, 12289]⟩

def isBlank (c : Char) : Bool :=
  blanks.mem c

/-- Nothing is left of the text once white space is cut from its ends. -/
def isBlankText (s : String) : Bool :=
  s.toList.all isBlank

end DocQuery.Text
