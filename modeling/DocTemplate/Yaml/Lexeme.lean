import DocTemplate.Yaml.Source
import DocTemplate.Yaml.Tag
import DocTemplate.Yaml.Token

/-!
# Names, tags and directives of a YAML text

Readers for the small words of a text: names of anchors and aliases, tags, and the values of
directives. A reader takes the cells after the indicator and returns what it read and the cells that
are left, or nothing if the text is not well formed.
-/

namespace DocTemplate.Yaml

/-- A reader. -/
abbrev Lexer (α : Type) := List Cell → Option (α × List Cell)

/-! ### Anchors and aliases -/

/-- Whether a character may follow a name. -/
def mayFollowName (c : Char) : Bool :=
  endsWord c || c == '?' || c == ':' || c == ',' || c == ']' || c == '\x7d' || c == '%' ||
    c == '@' || c == '\u0060'

/-- Read the name of an anchor or an alias. -/
def lexName : Lexer String := fun cells =>
  match charsWhile isWordChar cells with
  | [] => none
  | name =>
    let rest := skipWhile isWordChar cells
    if mayFollowName (nextChar rest) then some (String.ofList name, rest) else none

/-! ### Tags -/

/-- The value of a hexadecimal digit. -/
def hexValue? (c : Char) : Option Nat :=
  if '0' ≤ c ∧ c ≤ '9' then some (c.toNat - '0'.toNat)
  else if 'a' ≤ c ∧ c ≤ 'f' then some (c.toNat - 'a'.toNat + 10)
  else if 'A' ≤ c ∧ c ≤ 'F' then some (c.toNat - 'A'.toNat + 10)
  else none

/-- Whether a character may stand in a tag; a tag in angle brackets admits some more. -/
def isTagChar (bracketed : Bool) (c : Char) : Bool :=
  isWordChar c || ";/?:@&=+$.%!~*'()".toList.contains c || (bracketed && ",[]".toList.contains c)

/-- The number of bytes of a character whose first byte is given. -/
def byteCount? (first : Nat) : Option Nat :=
  if first < 0x80 then some 1
  else if 0xc0 ≤ first ∧ first < 0xe0 then some 2
  else if 0xe0 ≤ first ∧ first < 0xf0 then some 3
  else if 0xf0 ≤ first ∧ first < 0xf8 then some 4
  else none

/-- The bytes of a tag, given how many are missing to complete a character. The bytes of a character
that is not ASCII are given by number one after the other. -/
def tagBytes? (missing : Nat) : List Char → Option (List UInt8)
  | [] => if missing = 0 then some [] else none
  | '%' :: high :: low :: rest => do
    let byte := (← hexValue? high) * 16 + (← hexValue? low)
    let missing ←
      if missing = 0 then (byteCount? byte).map (· - 1)
      else if 0x80 ≤ byte ∧ byte < 0xc0 then some (missing - 1)
      else none
    return UInt8.ofNat byte :: (← tagBytes? missing rest)
  | c :: rest => do
    if missing ≠ 0 ∨ c = '%' then none
    else return c.toUInt8 :: (← tagBytes? 0 rest)

/-- Read the bytes of a tag, which may be none. -/
def lexTagBytes (bracketed : Bool) : Lexer (List UInt8) := fun cells =>
  (tagBytes? 0 (charsWhile (isTagChar bracketed) cells)).map fun bytes =>
    (bytes, skipWhile (isTagChar bracketed) cells)

/-- Read the handle of a tag: an exclamation mark, word characters, and a second mark if it is
there. -/
def lexHandle : Lexer (List Char) := fun cells =>
  match cells with
  | [] => none
  | cell :: rest =>
    if cell.char = '!' then
      let word := charsWhile isWordChar rest
      let afterWord := skipWhile isWordChar rest
      if nextChar afterWord = '!' then some ('!' :: word ++ ['!'], afterWord.drop 1)
      else some ('!' :: word, afterWord)
    else none

/-- Whether a handle is closed by a second mark. -/
def isClosedHandle (handle : List Char) : Bool :=
  2 ≤ handle.length && handle.getLast? == some '!'

/-- Read a tag without its handle resolved. The exclamation mark alone is a tag and not a handle. -/
def lexTagParts : Lexer (String × List UInt8) := fun cells => do
  if charAt 1 cells = '<' then
    let (meaning, rest) ← lexTagBytes true (cells.drop 2)
    if meaning.isEmpty || nextChar rest != '>' then none
    else return (("", Tag.beforeZero meaning), rest.drop 1)
  else
    let (handle, rest) ← lexHandle cells
    let (more, rest) ← lexTagBytes false rest
    if isClosedHandle handle then
      if more.isEmpty then none
      else return ((String.ofList handle, Tag.beforeZero more), rest)
    else
      let suffix := Tag.beforeZero ((handle.drop 1).map Char.toUInt8 ++ more)
      if suffix.isEmpty then return (("", Tag.asciiBytes "!"), rest)
      else return (("!", suffix), rest)

/-- Read a tag. A space or the end of a line must follow it, or a comma between brackets. -/
def lexTag (inFlow : Bool) : Lexer (String × List UInt8) := fun cells => do
  let (parts, rest) ← lexTagParts cells
  let next := nextChar rest
  if endsWord next || (inFlow && next == ',') then return (parts, rest) else none

/-! ### Directives -/

/-- Read a number of a version: between one and nine digits. -/
def lexVersionNumber : Lexer Nat := fun cells =>
  let digits := charsWhile Char.isDigit cells
  if digits.isEmpty || 9 < digits.length then none
  else some (digits.foldl (fun n c => 10 * n + (c.toNat - '0'.toNat)) 0,
    skipWhile Char.isDigit cells)

/-- Read the value of a version directive. -/
def lexVersion : Lexer Token := fun cells => do
  let (major, rest) ← lexVersionNumber (skipWhile isSpace cells)
  if nextChar rest = '.' then
    let (minor, rest) ← lexVersionNumber (rest.drop 1)
    return (.versionDirective major minor, rest)
  else none

/-- Read the value of a tag directive. -/
def lexTagMeaning : Lexer Token := fun cells => do
  let (handle, rest) ← lexHandle (skipWhile isSpace cells)
  if handle ≠ ['!'] ∧ !isClosedHandle handle then none
  else if !isSpace (nextChar rest) then none
  else
    let (meaning, rest) ← lexTagBytes true (skipWhile isSpace rest)
    if meaning.isEmpty || !endsWord (nextChar rest) then none
    else return (.tagDirective (String.ofList handle) (Tag.beforeZero meaning), rest)

/-- Read a directive, after its percent sign, with the rest of its line. -/
def lexDirective : Lexer Token := fun cells => do
  let name := charsWhile isWordChar cells
  let rest := skipWhile isWordChar cells
  if !endsWord (nextChar rest) then none
  let (token, rest) ←
    if name = "YAML".toList then lexVersion rest
    else if name = "TAG".toList then lexTagMeaning rest
    else none
  return (token, ← skipLineEnd? rest)

end DocTemplate.Yaml
