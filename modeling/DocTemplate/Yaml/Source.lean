/-!
# The characters of a YAML text

A YAML text is read as a list of cells, each a character with its place. A line break is one cell
however it is written: a line feed, except for the line and the paragraph separator, which are kept.
The list ends with a cell that holds a NUL, which no YAML text may contain.
-/

namespace DocTemplate.Yaml

/-- A character with its place. -/
structure Cell where
  /-- The character. -/
  char : Char
  /-- The number of line breaks before it. -/
  line : Nat
  /-- The number of characters before it on its line. -/
  column : Nat
  /-- The number of bytes before it, with every character in UTF-8. -/
  offset : Nat

/-- What the list of cells ends with. -/
def endMark : Char := '\x00'

/-- Whether a character may occur in a YAML text. -/
def isAllowed (c : Char) : Bool :=
  let n := c.toNat
  n == 0x09 || n == 0x0a || n == 0x0d || (0x20 ≤ n && n ≤ 0x7e) || n == 0x85 ||
    (0xa0 ≤ n && n ≤ 0xd7ff) || (0xe000 ≤ n && n ≤ 0xfffd) || 0x10000 ≤ n

/-- Whether a character is a space or a tab. -/
def isSpace (c : Char) : Bool :=
  c == ' ' || c == '\t'

/-- Whether a character of a cell is a line break. -/
def isBreak (c : Char) : Bool :=
  c == '\n' || c == '\u2028' || c == '\u2029'

/-- Whether a character of a cell ends a line. -/
def endsLine (c : Char) : Bool :=
  isBreak c || c == endMark

/-- Whether a character of a cell ends a word. -/
def endsWord (c : Char) : Bool :=
  isSpace c || endsLine c

/-- Whether a character may stand in an anchor or in the name of a directive. -/
def isWordChar (c : Char) : Bool :=
  c.isAlphanum || c == '_' || c == '-'

/-- The cells of a text from a place on, in front of cells given last first. -/
def cellsFrom (cells : List Cell) (line column offset : Nat) : List Char → List Cell
  | [] => (⟨endMark, line, column, offset⟩ :: cells).reverse
  | '\r' :: '\n' :: rest =>
    cellsFrom (⟨'\n', line, column, offset⟩ :: cells) (line + 1) 0 (offset + 2) rest
  | c :: rest =>
    let next := offset + c.utf8Size
    if c = '\r' ∨ c = '\x85' then
      cellsFrom (⟨'\n', line, column, offset⟩ :: cells) (line + 1) 0 next rest
    else if isBreak c then
      cellsFrom (⟨c, line, column, offset⟩ :: cells) (line + 1) 0 next rest
    else cellsFrom (⟨c, line, column, offset⟩ :: cells) line (column + 1) next rest

/-- The cells of a text, if all its characters are allowed. -/
def cells? (text : String) : Option (List Cell) :=
  let chars := text.toList
  if chars.all isAllowed then some (cellsFrom [] 0 0 0 chars) else none

/-- The character at a distance. -/
def charAt : Nat → List Cell → Char
  | _, [] => endMark
  | 0, cell :: _ => cell.char
  | n + 1, _ :: rest => charAt n rest

/-- The next character. -/
def nextChar (cells : List Cell) : Char :=
  charAt 0 cells

/-- The column of the next character. -/
def nextColumn : List Cell → Nat
  | [] => 0
  | cell :: _ => cell.column

/-- Whether a mark of three equal characters that begins or ends a document comes next. -/
def atDocumentMark (c : Char) (cells : List Cell) : Bool :=
  nextColumn cells == 0 && charAt 0 cells == c && charAt 1 cells == c && charAt 2 cells == c &&
    endsWord (charAt 3 cells)

/-- Whether a mark that begins or ends a document comes next. -/
def atAnyDocumentMark (cells : List Cell) : Bool :=
  atDocumentMark '-' cells || atDocumentMark '.' cells

/-- The cells from the first on that does not have a property. -/
def skipWhile (p : Char → Bool) (cells : List Cell) : List Cell :=
  cells.dropWhile fun cell => p cell.char

/-- The characters at the front that have a property. -/
def charsWhile (p : Char → Bool) (cells : List Cell) : List Char :=
  (cells.takeWhile fun cell => p cell.char).map Cell.char

/-- The cells after a comment, if one comes next. -/
def skipComment (cells : List Cell) : List Cell :=
  if nextChar cells = '#' then skipWhile (fun c => !endsLine c) cells else cells

/-- The cells after the rest of a line that may hold spaces and a comment only, if that is so. -/
def skipLineEnd? (cells : List Cell) : Option (List Cell) :=
  match skipComment (skipWhile isSpace cells) with
  | [] => some []
  | cell :: rest =>
    if isBreak cell.char then some rest
    else if cell.char = endMark then some (cell :: rest)
    else none

end DocTemplate.Yaml
