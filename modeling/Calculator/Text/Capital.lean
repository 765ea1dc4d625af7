import Calculator.Text.Blank

/-!
# Capitals

Names that are fixed in ASCII capitals are recognised in any case. A few characters beyond ASCII
count, because their upper case is ASCII: the dotless i, the long s, the sharp s and the ligatures
of f, i, l, s and t. The upper case of every other character beyond ASCII holds a character beyond
ASCII, so such a character occurs in no spelling of a name and is left alone.
-/

namespace Calculator.Text

/-- The upper case of a character, as far as it is ASCII. -/
def capital : Char → List Char
  | 'ß' => ['S', 'S']
  | 'ı' => ['I']
  | 'ſ' => ['S']
  | 'ﬀ' => ['F', 'F']
  | 'ﬁ' => ['F', 'I']
  | 'ﬂ' => ['F', 'L']
  | 'ﬃ' => ['F', 'F', 'I']
  | 'ﬄ' => ['F', 'F', 'L']
  | 'ﬅ' => ['S', 'T']
  | 'ﬆ' => ['S', 'T']
  | c => [c.toUpper]

/-- A text in capitals. -/
def capitals (text : String) : String := String.ofList (text.toList.flatMap capital)

end Calculator.Text
