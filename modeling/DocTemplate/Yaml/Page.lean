import DocTemplate.Yaml.Style

/-!
# Writing scalars on a page

A `Page` is the text written so far with what is needed to go on: the column reached, and whether
nothing but a space, or nothing but indentation, stands right before it. Scalars are written onto a
page in each of the styles.
-/

namespace DocTemplate.Yaml

/-- A text that is being written. -/
structure Page where
  /-- The text so far. -/
  text : String
  /-- The number of characters on the last line. -/
  column : Nat
  /-- Whether no space is needed before a word. -/
  spaced : Bool
  /-- Whether the last line holds only indentation and indicators that count as such. -/
  indented : Bool

namespace Page

/-- A page with nothing on it. -/
def blank : Page := ⟨"", 0, true, true⟩

/-- Write a character. -/
def put (p : Page) (c : Char) : Page :=
  { p with text := p.text.push c, column := p.column + 1 }

/-- Write a character that breaks the line. -/
def putBreak (p : Page) (c : Char) : Page :=
  { p with text := p.text.push c, column := 0 }

/-- Write characters. -/
def puts (p : Page) (s : String) : Page :=
  { p with text := p.text ++ s, column := p.column + s.length }

/-- Go to a column of a fresh line, staying on the line if it holds nothing beyond that column. -/
def indent (p : Page) (column : Nat) : Page :=
  let p :=
    if !p.indented || column < p.column || (p.column == column && !p.spaced) then p.putBreak '\n'
    else p
  { p.puts ("".pushn ' ' (column - p.column)) with spaced := true, indented := true }

/-- Write an indicator, after a space if it needs one and there is none. -/
def indicator (p : Page) (s : String) (needsSpace isSpace isIndentation : Bool) : Page :=
  let p := if needsSpace && !p.spaced then p.put ' ' else p
  { p.puts s with spaced := isSpace, indented := p.indented && isIndentation }

/-- Note that something other than indentation has been written. -/
def afterWord (p : Page) : Page :=
  { p with spaced := false, indented := false }

/-! ### Styles -/

/-- Write a text without quotes. -/
def plain (p : Page) (text : String) : Page :=
  let p := if !p.spaced && !text.isEmpty then p.put ' ' else p
  (p.puts text).afterWord

/-- Write the characters of a text between single quotes, given whether a break comes before
them. -/
def singleChars (column : Nat) : Page → Bool → List Char → Page
  | p, broken, [] => if broken then p.indent column else p
  | p, broken, c :: rest =>
    if isLineBreak c then singleChars column { p.putBreak c with indented := true } true rest
    else if c = ' ' then singleChars column (p.put ' ') broken rest
    else
      let p := if broken then p.indent column else p
      let p := if c = '\'' then p.put '\'' else p
      singleChars column { p.put c with indented := false } false rest

/-- Write a text between single quotes, its lines at a column. -/
def single (p : Page) (column : Nat) (text : String) : Page :=
  let p := singleChars column (p.indicator "'" true false false) false text.toList
  (p.indicator "'" false false false).afterWord

/-- A hexadecimal digit. -/
def hexChar (n : Nat) : Char :=
  if n < 10 then Char.ofNat ('0'.toNat + n) else Char.ofNat ('A'.toNat + (n - 10))

/-- A number with some hexadecimal digits. -/
def hexDigits (n : Nat) : Nat → List Char
  | 0 => []
  | count + 1 => hexDigits (n / 16) count ++ [hexChar (n % 16)]

/-- A character as it stands between double quotes. -/
def escapeChar (c : Char) : String :=
  match c with
  | '\x00' => "\\0"
  | '\x07' => "\\a"
  | '\x08' => "\\b"
  | '\t' => "\\t"
  | '\n' => "\\n"
  | '\x0b' => "\\v"
  | '\x0c' => "\\f"
  | '\r' => "\\r"
  | '\x1b' => "\\e"
  | '"' => "\\\""
  | '\\' => "\\\\"
  | '\x85' => "\\N"
  | '\u2028' => "\\L"
  | '\u2029' => "\\P"
  | c =>
    let n := c.toNat
    if isPrintable c then String.singleton c
    else if n ≤ 0xff then "\\x" ++ String.ofList (hexDigits n 2)
    else if n ≤ 0xffff then "\\u" ++ String.ofList (hexDigits n 4)
    else "\\U" ++ String.ofList (hexDigits n 8)

/-- Write a text between double quotes. -/
def double (p : Page) (text : String) : Page :=
  let p := p.indicator "\"" true false false
  let p := text.toList.foldl (fun p c => p.puts (escapeChar c)) p
  (p.indicator "\"" false false false).afterWord

/-- Write the lines of a text, given whether a line has just begun. -/
def literalChars (column : Nat) : Page → Bool → List Char → Page
  | p, _, [] => p
  | p, fresh, c :: rest =>
    if isLineBreak c then literalChars column { p.putBreak c with indented := true } true rest
    else
      let p := if fresh then p.indent column else p
      literalChars column { p.put c with indented := false } false rest

/-- What is said after the indicator of a literal about its indentation and the breaks at its
end. -/
def literalHints (text : List Char) : String :=
  let indentation := if text.head?.any fun c => c == ' ' || isLineBreak c then "2" else ""
  let chomping :=
    match text.reverse with
    | [] => "-"
    | [c] => if isLineBreak c then "+" else "-"
    | c :: before :: _ =>
      if !isLineBreak c then "-" else if isLineBreak before then "+" else ""
  indentation ++ chomping

/-- Write a text as lines that keep their breaks, at a column. -/
def literal (p : Page) (column : Nat) (text : String) : Page :=
  let p := p.indicator ("|" ++ literalHints text.toList) true false false
  let p := { p.putBreak '\n' with spaced := true, indented := true }
  literalChars column p true text.toList

/-- Write a text as a scalar, possibly as a key on the line of its value; further lines of it stand
at a column. -/
def scalar (p : Page) (column : Nat) (asKey : Bool) (text : String) : Page :=
  match styleOf text asKey with
  | .plain => p.plain text
  | .singleQuoted => p.single column text
  | .literal => p.literal column text
  | .doubleQuoted => p.double text
  | .folded => p.double text

end Page

end DocTemplate.Yaml
