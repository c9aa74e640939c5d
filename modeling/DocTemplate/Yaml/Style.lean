import DocTemplate.Yaml.Plain
import DocTemplate.Yaml.Source
import DocTemplate.Yaml.Token

/-!
# How a text is written as a scalar

A text is written without quotes unless it would be read back as something else or could not be read
back. A text with line feeds is written as lines that keep their breaks if that is possible. What is
possible is found by a survey of the characters of the text.
-/

namespace DocTemplate.Yaml

/-- Whether a character can be written as it is. -/
def isPrintable (c : Char) : Bool :=
  let n := c.toNat
  n == 0x0a || (0x20 ≤ n && n ≤ 0x7e) || (0xa0 ≤ n && n ≤ 0xd7ff) ||
    (0xe000 ≤ n && n ≤ 0xfffd && n != 0xfeff) || 0x10000 ≤ n

/-- Whether a character of a text is a line break. -/
def isLineBreak (c : Char) : Bool :=
  c == '\n' || c == '\r' || c == '\x85' || c == '\u2028' || c == '\u2029'

/-- Whether a character, or the end of the text, ends a word. -/
def isGap : Option Char → Bool
  | none => true
  | some c => isSpace c || isLineBreak c || c == endMark

/-- What a survey of a text finds. -/
structure Survey where
  /-- A character means something other than itself outside quotes. -/
  indicator : Bool
  /-- A character cannot be written as it is. -/
  special : Bool
  /-- There is a line break. -/
  multiline : Bool
  /-- A space follows a line break. -/
  breakSpace : Bool
  /-- A line break follows a space. -/
  spaceBreak : Bool
  /-- A space or a break comes first or last. -/
  loose : Bool
  /-- A space comes last. -/
  trailingSpace : Bool

/-- Whether a first character means something, given the one after it. -/
def isFirstIndicator (c : Char) (next : Option Char) : Bool :=
  "#,[]\x7b\x7d&*!|>'\"%@\u0060".toList.contains c ||
    ((c == '?' || c == ':' || c == '-') && isGap next)

/-- Whether a later character means something, given those around it. -/
def isLaterIndicator (previous c : Char) (next : Option Char) : Bool :=
  (c == ':' && isGap next) || (c == '#' && isGap (some previous))

/-- Whether a character after the first means something. -/
def hasLaterIndicator : Char → List Char → Bool
  | _, [] => false
  | previous, c :: rest =>
    isLaterIndicator previous c rest.head? || hasLaterIndicator c rest

/-- Whether two neighbours have properties. -/
def hasNeighbours (p q : Char → Bool) : List Char → Bool
  | a :: b :: rest => (p a && q b) || hasNeighbours p q (b :: rest)
  | _ => false

/-- Whether a text begins like a mark between documents. -/
def beginsLikeMark : List Char → Bool
  | '-' :: '-' :: '-' :: _ => true
  | '.' :: '.' :: '.' :: _ => true
  | _ => false

/-- Survey a text. -/
def survey (text : List Char) : Survey where
  indicator :=
    beginsLikeMark text ||
      match text with
      | [] => false
      | c :: rest => isFirstIndicator c rest.head? || hasLaterIndicator c rest
  special := text.any fun c => !isPrintable c
  multiline := text.any isLineBreak
  breakSpace := hasNeighbours isLineBreak (· == ' ') text
  spaceBreak := hasNeighbours (· == ' ') isLineBreak text
  loose :=
    text.head?.any (fun c => c == ' ' || isLineBreak c) ||
      text.getLast?.any (fun c => c == ' ' || isLineBreak c)
  trailingSpace := text.getLast?.any (· == ' ')

namespace Survey

/-- Whether a text can be written without quotes. -/
def allowsPlain (s : Survey) : Bool :=
  !(s.loose || s.breakSpace || s.spaceBreak || s.special || s.multiline || s.indicator)

/-- Whether a text can be written between single quotes. -/
def allowsSingle (s : Survey) : Bool :=
  !(s.breakSpace || s.spaceBreak || s.special)

/-- Whether a text can be written as lines that keep their breaks. -/
def allowsLiteral (s : Survey) : Bool :=
  !(s.trailingSpace || s.spaceBreak || s.special)

end Survey

/-- Whether a text would be read back as something other than a text. -/
def readsAsOther (text : String) : Bool :=
  match plain text with
  | .text => isPaddedNumber text.toList
  | _ => true

/-- The style in which a text is written, possibly as a key that stands on the line of its value. -/
def styleOf (text : String) (asKey : Bool) : ScalarStyle :=
  let s := survey text.toList
  if text.toList.contains '\n' then
    if s.allowsLiteral && !asKey then .literal else .doubleQuoted
  else if asKey && s.multiline then .doubleQuoted
  else if !readsAsOther text && s.allowsPlain then .plain
  else if s.allowsSingle then .singleQuoted
  else .doubleQuoted

/-- The greatest length of a key that stands on the line of its value, in bytes. -/
def maxSimpleKey : Nat := 128

/-- Whether a text can be a key on the line of its value. -/
def isSimpleKey (text : String) : Bool :=
  !(survey text.toList).multiline && text.utf8ByteSize ≤ maxSimpleKey

end DocTemplate.Yaml
