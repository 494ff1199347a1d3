/-!
# Letters

The letters a word may hold: those of ASCII and the accented ones of the blocks Latin-1 Supplement
and Latin Extended-A, where every character from `À` on is a letter except the two signs of
arithmetic.
-/

namespace Knockout.Text

/-- Whether a character is a letter of a word. -/
def isLetter (c : Char) : Bool :=
  c.isAlpha || ('À' ≤ c && c ≤ 'ſ' && c != '×' && c != '÷')

/-- Whether a character may stand in a run of word characters. -/
def isWordChar (c : Char) : Bool := isLetter c || c.isDigit || c == '_'

end Knockout.Text
