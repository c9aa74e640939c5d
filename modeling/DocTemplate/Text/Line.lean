/-!
# Line terminators

A line ends with a line feed or with a carriage return and a line feed, and the pair counts as one
terminator. `trim` takes one terminator off the front of a text and, only then, at most one off its
end. It is what keeps a block that stands on lines of its own from leaving blank lines behind.
-/

namespace DocTemplate.Text

/-- The terminator at the front of a text, empty if there is none, and the text after it. -/
def splitTerminator : List Char → List Char × List Char
  | '\r' :: '\n' :: rest => (['\r', '\n'], rest)
  | '\n' :: rest => (['\n'], rest)
  | rest => ([], rest)

/-- A text without the terminator at its end, if it has one. -/
def dropLastTerminator (text : List Char) : List Char :=
  match text.reverse with
  | '\n' :: '\r' :: before => before.reverse
  | '\n' :: before => before.reverse
  | _ => text

/-- A text without the terminator at its front and at most one at its end; a text that does not
begin with a terminator is left alone. -/
def trim (text : List Char) : List Char :=
  match splitTerminator text with
  | ([], _) => text
  | (_ :: _, rest) => dropLastTerminator rest

/-- `trim` on strings. -/
def trimString (text : String) : String :=
  String.ofList (trim text.toList)

/-- Splitting loses nothing. -/
theorem splitTerminator_append (text : List Char) :
    (splitTerminator text).1 ++ (splitTerminator text).2 = text := by
  fun_cases splitTerminator text <;> rfl

/-- What follows the front terminator is no longer than the text. -/
theorem length_splitTerminator_le (text : List Char) :
    (splitTerminator text).2.length ≤ text.length := by
  rw [← congrArg List.length (splitTerminator_append text), List.length_append]
  omega

end DocTemplate.Text
