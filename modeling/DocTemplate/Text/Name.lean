import DocTemplate.Text.Alphanumeric

/-!
# Name characters

A component of a reference is written with name characters: letters and digits of any script, `_`
and `-`. The characters that delimit a reference in a template are none.
-/

namespace DocTemplate.Text

/-- Whether a character may stand in a name. -/
def isNameChar (c : Char) : Bool :=
  isAlphanumeric c || c == '_' || c == '-'

/-- A letter or digit of any script may stand in a name. -/
theorem isNameChar_of_isAlphanumeric {c : Char} (h : isAlphanumeric c = true) :
    isNameChar c = true := by
  simp [isNameChar, h]

theorem isNameChar_dollar : isNameChar '$' = false := by decide

theorem isNameChar_dot : isNameChar '.' = false := by decide

theorem isNameChar_open : isNameChar '(' = false := by decide

theorem isNameChar_close : isNameChar ')' = false := by decide

theorem isNameChar_lineFeed : isNameChar '\n' = false := by decide

theorem isNameChar_return : isNameChar '\r' = false := by decide

end DocTemplate.Text
